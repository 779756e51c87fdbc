import EspWebsite.Accounting.Approval
import EspWebsite.Accounting.Preferences

/-!
# Donations

The donation form of `program/modules/handlers/donationmodule.py`, on its own page and on the
card payment page of `creditcardmodule_stripe.py`.
-/

namespace EspWebsite.Accounting

open Python Tables Transactions Action Binary64

/-- The line item for which the pages set a preference. -/
def donationName : String := "Donation to Learning Unlimited"

/-! ## The form -/

/-- What a field of a form reads in a POST. -/
inductive Entered (Value : Type) where
  | blank
  | unreadable
  | entered (value : Value)
  deriving DecidableEq

/-- A value in `donation_options`.  A binary number is given by its text. -/
inductive DonationOption where
  | int (value : ℤ)
  | float (text : List Char)
  | bool (value : Bool)
  | other
  deriving DecidableEq

/-- The texts of the numbers that are not finite. -/
def isSpecial (text : List Char) : Bool :=
  let letters := (match text with
    | '-' :: rest => rest
    | '+' :: rest => rest
    | _ => text).map Char.toLower
  letters ∈ ["inf".toList, "infinity".toList, "nan".toList]

/-- The text of the choice for an option, whose label is `'$%d' % option`. -/
def DonationOption.choice : DonationOption → Raises (List Char)
  | .int value => .ok ((if value < 0 then ['-'] else []) ++ numeral value.natAbs)
  | .float text =>
      if text = "nan".toList then
        .error (.raised "ValueError" "cannot convert float NaN to integer")
      else if isSpecial text then
        .error (.raised "OverflowError" "cannot convert float infinity to integer")
      else .ok text
  | .bool value => .ok (if value then "True".toList else "False".toList)
  | .other => .error (.raised "TypeError" "%d format: a real number is required")

structure DonationSettings where
  donationText : String
  donationOptions : List DonationOption
  deriving DecidableEq

/-- The texts of the choices: no donation, the options and a different amount. -/
def DonationSettings.choices (settings : DonationSettings) : Raises (List (List Char)) := do
  let options ← settings.donationOptions.mapM DonationOption.choice
  return "0".toList :: options ++ ["-1".toList]

/-- The pages with the form. -/
inductive DonationPage where
  | donation
  | card
  deriving DecidableEq

/-- The settings of both pages.  The card page has further ones: whether the keys of the
payment service are valid, and `offer_donation`. -/
structure DonationConfiguration where
  settings : DonationPage → DonationSettings
  keysValid : Bool
  offerDonation : Bool

structure DonationPost where
  page : DonationPage
  amountDonation : List Char
  customAmount : Entered Amount

/-- `form.amount`: the text of a choice, or a number. -/
inductive DonatedAmount where
  | option (text : List Char)
  | custom (amount : Amount)
  deriving DecidableEq

namespace DonatedAmount

/-- Whether the amount counts as true. -/
def isTrue : DonatedAmount → Bool
  | .option text => text ≠ []
  | .custom amount => amount.cents ≠ 0

def toNumber : DonatedAmount → PyNumber
  | .option text =>
      match parseFloat text with
      | some value => .decimal value
      | none => .notFinite
  | .custom amount => .decimal (amount.cents / 100)

end DonatedAmount

/-- `form.amount`, if the form is valid. -/
def DonationPost.formAmount (post : DonationPost) (choices : List (List Char)) :
    Option DonatedAmount :=
  if post.amountDonation = [] ∨ post.amountDonation ∉ choices then none
  else
    match post.customAmount with
    | .unreadable => none
    | .blank =>
        if post.amountDonation = "-1".toList then none else some (.option post.amountDonation)
    | .entered amount =>
        if amount.cents < 100 ∨ 100000 < amount.cents then none
        else if post.amountDonation = "-1".toList then some (.custom amount)
        else some (.option post.amountDonation)

/-- `DonationForm.is_valid()`, with `form.amount`. -/
def DonationSettings.form (settings : DonationSettings) (post : DonationPost) :
    Raises (Option DonatedAmount) := do
  let choices ← settings.choices
  return post.formAmount choices

/-! ## The pages -/

/-- Clears the transfers, by quantity 0. -/
def clearedDonation : Preference :=
  { lineitemName := donationName, quantity := 0, amount := none, optionId := none }

def chosenDonation (amount : DonatedAmount) : Preference :=
  { lineitemName := donationName, quantity := 1, amount := some amount.toNumber, optionId := none }

namespace IndividualAccountingController

variable (iac : IndividualAccountingController)

/-- A line item of the program with a text. -/
def isNamed (text : String) (item : LineItemType) : Bool :=
  item.program = iac.program.id ∧ item.text = text

/-- The line items of the program with a text. -/
def named (text : String) (shop : Shop) : List LineItemType :=
  shop.lineItemTypes.rows.filter (iac.isNamed text)

def newLineItemType (text : String) (id : ℕ) : LineItemType :=
  { id, text, amountDec := ⟨0, (iac.newRefundLineitemtype id).amountDec.fits⟩, program := iac.program.id, required := false,
    forPayments := false, forFinaid := false }

theorem id_newLineItemType (text : String) (id : ℕ) : (iac.newLineItemType text id).id = id := rfl

def withLineItemType (text : String) (shop : Shop) : Shop :=
  { shop with
    lineItemTypes :=
      shop.lineItemTypes.create (iac.newLineItemType text) (iac.id_newLineItemType text)
    maxQuantity := Function.update shop.maxQuantity shop.lineItemTypes.next 1
    selectsMultiple := Function.update shop.selectsMultiple shop.lineItemTypes.next false }

/-- `LineItemType.objects.get_or_create`, among the line items that satisfy a condition. -/
def getOrCreateLineItemType (text : String) (condition : LineItemType → Bool) :
    Action Shop LineItemType := do
  let shop ← read
  match (iac.named text shop).filter condition with
  | [] =>
      change (iac.withLineItemType text)
      return iac.newLineItemType text shop.lineItemTypes.next
  | [item] => return item
  | _ => raise (.raised "MultipleObjectsReturned" "get() returned more than one LineItemType")

def lineItemType (settings : DonationSettings) : Action Shop LineItemType :=
  iac.getOrCreateLineItemType settings.donationText fun _ => true

/-- `check_setup`, for a page that is only shown where it holds. -/
def checkSetup (config : DonationConfiguration) : Action Shop PUnit := do
  onlyIf config.offerDonation (do
    let _ ← iac.getOrCreateLineItemType (config.settings .card).donationText
      fun item => !item.required
    return ⟨⟩)
  onlyIf (!config.keysValid) (raise
    (.raised "ESPError" "The site has not yet been properly set up for credit card payments."))

/-- What the pages do before they look for the donation. -/
def openPage (config : DonationConfiguration) : DonationPage → Action Shop PUnit
  | .donation => do
      let shop ← read
      onlyIf (0 < iac.amountPaid shop.toDatabase)
        (raise (.raised "ESPError" "You've already paid for this program."))
  | .card => iac.checkSetup config

def currentDonation (item : LineItemType) : Action Shop (Option Amount) := do
  let _ ← onTables defaultSourceAccount
  let shop ← read
  return (shop.transfers.rows.find? (iac.isFor item)).map Transfer.amountDec

/-- Sets the preference for a donation, in place of the earlier ones. -/
def setDonation (amount : DonatedAmount) : Action Shop PUnit := do
  let _ ← iac.setPreferenceWithOption clearedDonation
  onlyIf amount.isTrue (do
    let _ ← iac.setPreferenceWithOption (chosenDonation amount)
    return ⟨⟩)

/-- `donation`, and the donation part of `charge_payment`, for a POST. -/
def donation (config : DonationConfiguration) (post : DonationPost) : Action Shop PUnit := do
  iac.openPage config post.page
  let item ← iac.lineItemType (config.settings post.page)
  let _ ← iac.currentDonation item
  let form ← lift ((config.settings post.page).form post)
  match form with
  | none => return ⟨⟩
  | some amount => iac.setDonation amount

/-- One POST after another. -/
def donations (config : DonationConfiguration) (posts : List DonationPost) : Action Shop PUnit :=
  forEach (fun post _ => iac.donation config post) posts ⟨⟩

end IndividualAccountingController

/-! ## What is to be recorded -/

def DonationPost.amount (post : DonationPost) : DonatedAmount :=
  match post.customAmount with
  | .entered amount =>
      if post.amountDonation = "-1".toList then .custom amount else .option post.amountDonation
  | _ => .option post.amountDonation

def DonationPost.chosen (post : DonationPost) : Option PyNumber :=
  if post.amountDonation = "0".toList then none else some post.amount.toNumber

namespace IndividualAccountingController

variable (iac : IndividualAccountingController)

/-- The user's transfers for the line items of the program with a text. -/
def isDonation (text : String) (shop : Shop) (transfer : Transfer) : Bool :=
  transfer.user = some iac.user && shop.lineItemIs (iac.isNamed text) transfer

/-- The amounts of the user's transfers for the line items of the program with a text. -/
def donated (text : String) (shop : Shop) : List ℚ :=
  (shop.transfers.rows.filter (iac.isDonation text shop)).map fun transfer =>
    transfer.amountDec.cents / 100

/-- There is one transfer of the positive amount that was chosen, or none if no donation was. -/
def IsDonated (text : String) (chosen : Option PyNumber) (shop : Shop) : Prop :=
  match chosen with
  | none => iac.donated text shop = []
  | some number =>
      ∃ value, toPython number = .ok value ∧ 0 < value ∧ iac.donated text shop = [value]

/-- The condition on a post and the tables for the page to set the donation. -/
structure Accepts (config : DonationConfiguration) (shop : Shop) (post : DonationPost) :
    Prop where
  /-- The card page is set up. -/
  setUp : post.page = .card → config.keysValid = true
  /-- The options have labels. -/
  labels : ∀ option ∈ (config.settings post.page).donationOptions,
    ∃ text, option.choice = .ok text
  /-- The program has at most one line item with the text. -/
  single : (iac.named (config.settings post.page).donationText shop).length ≤ 1
  /-- The card page does not come upon one that is required. -/
  optional : post.page = .card → config.offerDonation = true →
    ∀ item ∈ iac.named (config.settings post.page).donationText shop, item.required = false
  /-- What is chosen is an amount that fits. -/
  stored : ∃ value amountDec, toPython post.amount.toNumber = .ok value ∧
    storedAmount value = .ok amountDec

/-- The condition for the last post to end in what was chosen: the amount is positive and whole
in cents, and set for the configured line item; if that is another one, its transfers are
already as chosen. -/
def LastDonated (config : DonationConfiguration) (last : DonationPost) (shop : Shop) : Prop :=
  if (config.settings last.page).donationText = donationName then
    ∃ number amount, last.chosen = some number ∧
      toPython number = .ok ((amount : Amount).cents / 100) ∧ 0 < amount.cents
  else iac.IsDonated (config.settings last.page).donationText last.chosen shop

/-- The condition for the posts of a student to go through and to end in what was chosen last. -/
structure Donatable (config : DonationConfiguration) (posts : List DonationPost)
    (last : DonationPost) (shop : Shop) : Prop where
  accepts : ∀ post ∈ posts, iac.Accepts config shop post
  /-- The program has the line item for which the preference is set, or the first page creates it. -/
  literal : iac.named donationName shop ≠ [] ∨
    ∀ first ∈ posts.head?, (config.settings first.page).donationText = donationName
  /-- Nothing is marked as paid in a transfer for that line item. -/
  unprotected : ∀ item, iac.lineitemtypeNamed donationName shop.toDatabase = .ok item →
    Unprotected (iac.isFor item) shop
  last : iac.LastDonated config last shop

end IndividualAccountingController

section Form

variable {settings : DonationSettings} {post : DonationPost} {amount : DonatedAmount}
  {choices : List (List Char)}

theorem formAmount_eq_some (valid : post.formAmount choices = some amount) :
    amount = post.amount ∧ amount.isTrue = true := by
  rw [DonationPost.formAmount] at valid
  rw [DonationPost.amount]
  split at valid
  next => cases valid
  next listed =>
    have isTrue : (DonatedAmount.option post.amountDonation).isTrue = true :=
      decide_eq_true fun empty => listed (Or.inl empty)
    cases entered : post.customAmount with
    | unreadable =>
        rw [entered] at valid
        cases valid
    | blank =>
        rw [entered] at valid
        dsimp only at valid ⊢
        split at valid
        next => cases valid
        next =>
          cases valid
          exact ⟨rfl, isTrue⟩
    | entered custom =>
        rw [entered] at valid
        dsimp only at valid ⊢
        split at valid
        next => cases valid
        next within =>
          split at valid
          next other =>
            cases valid
            rw [if_pos other, DonatedAmount.isTrue, decide_eq_true_eq]
            exact ⟨rfl, fun zero => within (Or.inl (by omega))⟩
          next listed =>
            cases valid
            rw [if_neg listed]
            exact ⟨rfl, isTrue⟩

theorem form_returns : (∃ result, settings.form post = .ok result) ↔
    ∀ option ∈ settings.donationOptions, ∃ text, option.choice = .ok text := by
  constructor
  · rintro ⟨result, isForm⟩ option isOption
    rcases Python.bind_eq_ok.mp isForm with ⟨choices, isChoices, _⟩
    rcases Python.bind_eq_ok.mp isChoices with ⟨texts, isTexts, _⟩
    rcases List.mem_iff_getElem.mp isOption with ⟨index, inside, rfl⟩
    have all := mapM_eq_ok.mp isTexts
    exact ⟨_, all.get inside (all.length_eq ▸ inside)⟩
  · intro labels
    rcases exists_mapM labels with ⟨texts, isTexts⟩
    rw [DonationSettings.form, DonationSettings.choices, isTexts]
    exact ⟨_, rfl⟩

theorem form_eq_ok (valid : settings.form post ≠ .ok none) {result : Option DonatedAmount} :
    settings.form post = .ok result ↔
      (∀ option ∈ settings.donationOptions, ∃ text, option.choice = .ok text) ∧
        result = some post.amount ∧ post.amount.isTrue = true := by
  constructor
  · intro isForm
    refine ⟨form_returns.mp ⟨result, isForm⟩, ?_⟩
    rw [isForm] at valid
    rcases result with _ | amount
    · exact absurd rfl valid
    · rcases Python.bind_eq_ok.mp isForm with ⟨choices, _, returned⟩
      rcases formAmount_eq_some (Except.ok.inj returned) with ⟨rfl, isTrue⟩
      exact ⟨rfl, isTrue⟩
  · rintro ⟨labels, rfl, isTrue⟩
    rcases form_returns.mpr labels with ⟨result, isForm⟩
    rw [isForm] at valid ⊢
    rcases result with _ | amount
    · exact absurd rfl valid
    · rcases Python.bind_eq_ok.mp isForm with ⟨choices, _, returned⟩
      rw [(formAmount_eq_some (Except.ok.inj returned)).1]

end Form

namespace IndividualAccountingController

section LineItems

variable {iac : IndividualAccountingController} {shop between after : Shop}
  {text other : String} {condition : LineItemType → Bool} {item : LineItemType}
  {config : DonationConfiguration} {page : DonationPage} {settings : DonationSettings}

theorem mem_named : item ∈ iac.named text shop ↔
    item ∈ shop.lineItemTypes.rows ∧ item.program = iac.program.id ∧ item.text = text := by
  rw [named, List.mem_filter, isNamed, decide_eq_true_eq]

theorem named_withLineItemType : iac.named other (iac.withLineItemType text shop) =
    iac.named other shop ++
      if text = other then [iac.newLineItemType text shop.lineItemTypes.next] else [] := by
  have rows : (iac.withLineItemType text shop).lineItemTypes.rows =
      shop.lineItemTypes.rows ++ [iac.newLineItemType text shop.lineItemTypes.next] := rfl
  rw [named, named, rows, List.filter_append]
  refine congrArg _ ?_
  by_cases same : text = other
  · simp [same, isNamed, newLineItemType]
  · simp [same, isNamed, newLineItemType]

theorem getOrCreateLineItemType_eq_ok :
    iac.getOrCreateLineItemType text condition shop = (.ok item, after) ↔
      ((iac.named text shop).filter condition = [] ∧
          item = iac.newLineItemType text shop.lineItemTypes.next ∧
          after = iac.withLineItemType text shop) ∨
        ((iac.named text shop).filter condition = [item] ∧ after = shop) := by
  rw [getOrCreateLineItemType, read_bind]
  rcases found : (iac.named text shop).filter condition with _ | ⟨first, _ | ⟨second, rest⟩⟩
  · simp [eq_comm]
  · simp [eq_comm]
  · simp

/-- The tables once a page has looked for its line item. -/
def ensured (iac : IndividualAccountingController) (text : String) (shop : Shop) : Shop :=
  if iac.named text shop = [] then iac.withLineItemType text shop else shop

theorem named_ensured_self : iac.named text (iac.ensured text shop) ≠ [] := by
  rw [ensured]
  split
  next =>
    rw [named_withLineItemType, if_pos rfl]
    exact List.append_ne_nil_of_right_ne_nil _ (List.cons_ne_nil _ _)
  next listed => exact listed

theorem named_ensured_of_ne (different : text ≠ other) :
    iac.named other (iac.ensured text shop) = iac.named other shop := by
  rw [ensured]
  split
  next => rw [named_withLineItemType, if_neg different, List.append_nil]
  next => rfl

theorem lineItemType_eq_ok : (∃ item, iac.lineItemType settings shop = (.ok item, after)) ↔
    (iac.named settings.donationText shop).length ≤ 1 ∧
      after = iac.ensured settings.donationText shop := by
  have all : (iac.named settings.donationText shop).filter (fun _ => true) =
      iac.named settings.donationText shop := List.filter_true _
  rw [lineItemType, ensured]
  simp only [getOrCreateLineItemType_eq_ok, all]
  rcases iac.named settings.donationText shop with _ | ⟨first, _ | ⟨second, rest⟩⟩
  · simp
  · simp
  · simp

theorem checkSetup_eq_ok {done : PUnit} :
    iac.checkSetup config shop = (.ok done, after) ↔
      config.keysValid = true ∧
        (if config.offerDonation then
          ∃ item, iac.getOrCreateLineItemType (config.settings .card).donationText
            (fun item => !item.required) shop = (.ok item, after)
        else after = shop) := by
  rw [checkSetup, Action.bind_eq_ok]
  cases valid : config.keysValid with
  | false =>
      simp only [Bool.false_eq_true, false_and, iff_false]
      rintro ⟨_, between, _, refused⟩
      cases congrArg Prod.fst refused
  | true =>
      simp only [true_and]
      cases config.offerDonation with
      | false =>
          constructor
          · rintro ⟨_, between, first, last⟩
            cases first
            cases last
            rfl
          · rintro rfl
            exact ⟨⟨⟩, after, rfl, rfl⟩
      | true =>
          constructor
          · rintro ⟨_, between, first, last⟩
            cases last
            rcases Action.bind_eq_ok.mp first with ⟨item, _, gets, returned⟩
            cases returned
            exact ⟨item, gets⟩
          · rintro ⟨item, gets⟩
            exact ⟨⟨⟩, after, Action.bind_eq_ok.mpr ⟨item, after, gets, rfl⟩, rfl⟩

/-- A page finds its line item, or creates it. -/
structure Opens (iac : IndividualAccountingController) (config : DonationConfiguration)
    (shop : Shop) (page : DonationPage) : Prop where
  setUp : page = .card → config.keysValid = true
  single : (iac.named (config.settings page).donationText shop).length ≤ 1
  optional : page = .card → config.offerDonation = true →
    ∀ item ∈ iac.named (config.settings page).donationText shop, item.required = false

theorem openPage_donation (unpaid : iac.amountPaid shop.toDatabase ≤ 0) :
    iac.openPage config .donation shop = (.ok ⟨⟩, shop) := by
  rw [openPage, read_bind, onlyIf, if_neg unpaid.not_gt]
  rfl

theorem lineItemType_of_optional :
    (∃ between, (∃ item, iac.getOrCreateLineItemType (config.settings .card).donationText
          (fun item => !item.required) shop = (.ok item, between)) ∧
        ∃ item, iac.lineItemType (config.settings .card) between = (.ok item, after)) ↔
      ((iac.named (config.settings .card).donationText shop).length ≤ 1 ∧
          ∀ item ∈ iac.named (config.settings .card).donationText shop, item.required = false) ∧
        after = iac.ensured (config.settings .card).donationText shop := by
  simp only [lineItemType_eq_ok]
  constructor
  · rintro ⟨between, ⟨item, gets⟩, single, rfl⟩
    rcases getOrCreateLineItemType_eq_ok.mp gets with ⟨none, rfl, rfl⟩ | ⟨one, rfl⟩
    · -- Another line item with the text would be a second one.
      rw [named_withLineItemType, if_pos rfl, List.length_append, List.length_singleton] at single
      have empty : iac.named (config.settings .card).donationText shop = [] :=
        List.length_eq_zero_iff.mp (by omega)
      rw [empty]
      refine ⟨⟨Nat.zero_le _, by simp⟩, ?_⟩
      rw [ensured, if_neg (by rw [named_withLineItemType, if_pos rfl, empty]; simp), ensured,
        if_pos empty]
    · refine ⟨⟨single, fun other isNamed => ?_⟩, rfl⟩
      rcases listed : iac.named (config.settings .card).donationText between with
        _ | ⟨first, _ | ⟨second, rest⟩⟩
      · rw [listed] at isNamed
        cases isNamed
      · rw [listed] at isNamed one
        cases List.mem_singleton.mp isNamed
        cases isRequired : other.required with
        | false => rfl
        | true => simp [isRequired] at one
      · rw [listed] at single
        simp at single
  · rintro ⟨⟨single, optional⟩, rfl⟩
    rcases listed : iac.named (config.settings .card).donationText shop with
      _ | ⟨first, _ | ⟨second, rest⟩⟩
    · refine ⟨_, ⟨_, getOrCreateLineItemType_eq_ok.mpr (Or.inl ⟨?_, rfl, rfl⟩)⟩, ?_, ?_⟩
      · rw [listed]
        rfl
      · rw [named_withLineItemType, if_pos rfl, listed]
        exact le_rfl
      · rw [ensured, if_pos listed, ensured,
          if_neg (by rw [named_withLineItemType, if_pos rfl, listed]; simp)]
    · refine ⟨shop, ⟨first, getOrCreateLineItemType_eq_ok.mpr (Or.inr ⟨?_, rfl⟩)⟩, single, rfl⟩
      have isOptional := optional first (by rw [listed]; exact List.mem_cons_self)
      rw [listed, List.filter_cons_of_pos (by rw [isOptional]; rfl), List.filter_nil]
    · rw [listed] at single
      simp at single

theorem openPage_eq_ok (unpaid : iac.amountPaid shop.toDatabase ≤ 0) :
    (∃ done between item, iac.openPage config page shop = (.ok done, between) ∧
        iac.lineItemType (config.settings page) between = (.ok item, after)) ↔
      iac.Opens config shop page ∧
        after = iac.ensured (config.settings page).donationText shop := by
  cases page with
  | donation =>
      constructor
      · rintro ⟨done, between, item, opens, gets⟩
        rw [openPage_donation unpaid] at opens
        cases opens
        rcases lineItemType_eq_ok.mp ⟨item, gets⟩ with ⟨single, rfl⟩
        exact ⟨⟨by simp, single, by simp⟩, rfl⟩
      · rintro ⟨opens, rfl⟩
        rcases lineItemType_eq_ok.mpr ⟨opens.single, rfl⟩ with ⟨item, gets⟩
        exact ⟨⟨⟩, shop, item, openPage_donation unpaid, gets⟩
  | card =>
      simp only [openPage, checkSetup_eq_ok]
      cases offers : config.offerDonation with
      | false =>
          constructor
          · rintro ⟨done, between, item, ⟨valid, rfl⟩, gets⟩
            rcases lineItemType_eq_ok.mp ⟨item, gets⟩ with ⟨single, rfl⟩
            exact ⟨⟨fun _ => valid, single, by simp [offers]⟩, rfl⟩
          · rintro ⟨opens, rfl⟩
            rcases lineItemType_eq_ok.mpr ⟨opens.single, rfl⟩ with ⟨item, gets⟩
            exact ⟨⟨⟩, shop, item, ⟨opens.setUp rfl, rfl⟩, gets⟩
      | true =>
          constructor
          · rintro ⟨done, between, item, ⟨valid, first⟩, gets⟩
            rcases lineItemType_of_optional.mp ⟨between, first, item, gets⟩ with
              ⟨⟨single, optional⟩, rfl⟩
            exact ⟨⟨fun _ => valid, single, fun _ _ => optional⟩, rfl⟩
          · rintro ⟨opens, rfl⟩
            rcases lineItemType_of_optional.mpr
              ⟨⟨opens.single, opens.optional rfl offers⟩, rfl⟩ with ⟨between, first, item, gets⟩
            exact ⟨⟨⟩, between, item, ⟨opens.setUp rfl, first⟩, gets⟩

end LineItems

section Setting

variable {iac : IndividualAccountingController} {shop after : Shop} {item : LineItemType}
  {amount : DonatedAmount} {value : ℚ} {amountDec : Amount} {name : String} {db : Database}

/-- A name is found where a line item of the program has it. -/
theorem lineitemtypeNamed_returns : (∃ item, iac.lineitemtypeNamed name db = .ok item) ↔
    ∃ item ∈ db.lineItemTypes.rows, iac.lineitemtypesQ false item = true ∧ item.text = name := by
  constructor
  · rintro ⟨item, isItem⟩
    rcases lineitemtypeNamed_eq_ok isItem with ⟨sameText, isMember⟩
    rcases mem_getLineitemtypes isMember with ⟨isRow, query⟩
    exact ⟨item, isRow, query, sameText⟩
  · rintro ⟨item, isRow, query, sameText⟩
    let condition (item : LineItemType) : Bool := iac.lineitemtypesQ false item && item.text = name
    have isNamed : item ∈ (db.lineItemTypes.rows.filter condition).toFinset := by
      rw [List.mem_toFinset, List.mem_filter]
      exact ⟨isRow, by simp [condition, query, sameText]⟩
    rcases Finset.exists_max_image _ LineItemType.id ⟨item, isNamed⟩ with ⟨newest, isFound, newer⟩
    rw [List.mem_toFinset, List.mem_filter] at isFound
    have isNewest : newest ∈ newestOfEach condition db := by
      refine mem_newestOfEach.mpr ⟨isFound.1, isFound.2, fun other isOther holds _ => ?_⟩
      exact newer other (List.mem_toFinset.mpr (List.mem_filter.mpr ⟨isOther, holds⟩))
    have single : ∀ other ∈ newestOfEach condition db, other = newest := by
      intro other isOther
      rcases mem_newestOfEach.mp isOther with ⟨isOtherRow, holds, newest'⟩
      have texts (item : LineItemType) (holds : condition item = true) : item.text = name := by
        simp only [condition, Bool.and_eq_true, decide_eq_true_eq] at holds
        exact holds.2
      have sameText := (texts newest isFound.2).trans (texts other holds).symm
      refine Table.eq_of_key_eq isOtherRow isFound.1 (le_antisymm ?_ ?_)
      · exact newer other (List.mem_toFinset.mpr (List.mem_filter.mpr ⟨isOtherRow, holds⟩))
      · exact newest' newest isFound.1 isFound.2 sameText
    have nodup := @nodup_newestOfEach condition db
    refine ⟨newest, ?_⟩
    rw [lineitemtypeNamed]
    change (match newestOfEach condition db with | [] => _ | [item] => _ | _ => _) = _
    rcases found : newestOfEach condition db with _ | ⟨first, _ | ⟨second, rest⟩⟩
    · rw [found] at isNewest
      cases isNewest
    · rw [found] at single
      rw [single first List.mem_cons_self]
    · rw [found] at single nodup
      have same := (single first List.mem_cons_self).trans
        (single second (List.mem_cons_of_mem _ List.mem_cons_self)).symm
      rw [same] at nodup
      exact absurd List.mem_cons_self (List.nodup_cons.mp nodup).1

theorem lineitemtypeNamed_donation :
    (∃ item, iac.lineitemtypeNamed donationName shop.toDatabase = .ok item) ↔
      iac.named donationName shop ≠ [] := by
  have notFinaid : donationName ∉ finaidItems := by decide
  have notRefund : donationName ∉ refundItems := by decide
  rw [lineitemtypeNamed_returns]
  constructor
  · rintro ⟨item, isRow, query, sameText⟩
    rw [lineitemtypesQ, decide_eq_true_eq] at query
    exact List.ne_nil_of_mem (mem_named.mpr ⟨isRow, query.1, sameText⟩)
  · intro listed
    rcases List.exists_mem_of_ne_nil _ listed with ⟨item, isNamed⟩
    rcases mem_named.mp isNamed with ⟨isRow, ofProgram, sameText⟩
    refine ⟨item, isRow, ?_, sameText⟩
    rw [lineitemtypesQ, decide_eq_true_eq, sameText]
    exact ⟨ofProgram, notFinaid, notRefund, by simp⟩

/-- There is one transfer of the amount for a line item, and all else is as before. -/
structure IsGiven (iac : IndividualAccountingController) (item : LineItemType)
    (amountDec : Amount) (shop after : Shop) : Prop where
  tables : shop.SameTables after
  grows : shop.transfers.next ≤ after.transfers.next
  others : after.view (fun transfer => !iac.isFor item transfer) =
    shop.view fun transfer => !iac.isFor item transfer
  own : ∃ row, after.view (iac.isFor item) = [row] ∧ row.1.amountDec = amountDec ∧
    row.1.paidIn = none ∧ row.1.source ≠ none ∧ shop.transfers.next ≤ row.1.id

theorem removes_clearedDonation :
    iac.removes item clearedDonation shop = iac.isFor item := by
  funext transfer
  rw [removes, Preference.covers, clearedDonation]
  simp

theorem IsSet.nil_of_cleared (isSet : iac.IsSet item clearedDonation shop after) :
    after.view (iac.isFor item) = [] := by
  rcases isSet.own with ⟨new, isOwn, isNew, _⟩
  have none : new = [] := List.map_eq_nil_iff.mp isNew
  rw [isOwn, none, List.append_nil, List.filter_eq_nil_iff]
  intro row _
  simp [Preference.covers, clearedDonation]

theorem setDonation_eq_ok {done : PUnit} (isTrue : amount.isTrue = true)
    (run : iac.setDonation amount shop = (.ok done, after)) :
    ∃ item value amountDec, iac.lineitemtypeNamed donationName shop.toDatabase = .ok item ∧
      Unprotected (iac.isFor item) shop ∧ toPython amount.toNumber = .ok value ∧
      storedAmount value = .ok amountDec ∧ iac.IsGiven item amountDec shop after := by
  rw [setDonation] at run
  rcases Action.bind_eq_ok.mp run with ⟨_, between, clears, sets⟩
  rw [onlyIf, if_pos isTrue] at sets
  rcases Action.bind_eq_ok.mp sets with ⟨_, _, sets, returned⟩
  cases returned
  rcases setPreference_eq_ok (Or.inl rfl) clears with ⟨item, isItem, cleared⟩
  rcases setPreference_eq_ok (Or.inr rfl) sets with ⟨same, isSame, isSet⟩
  have still : iac.lineitemtypeNamed donationName between.toDatabase = .ok item := by
    rw [lineitemtypeNamed_congr cleared.tables]
    exact isItem
  cases still.symm.trans isSame
  have unprotected := cleared.unprotected
  rw [removes_clearedDonation] at unprotected
  rcases isSet.own with ⟨new, isOwn, isNew, isFresh⟩
  rw [cleared.nil_of_cleared, List.filter_nil, List.nil_append] at isOwn
  obtain ⟨value, amountDec, isValue, stored⟩ : ∃ value amountDec,
      toPython amount.toNumber = .ok value ∧ storedAmount value = .ok amountDec := by
    have written := isSet.written
    rw [Preference.writes, chosenDonation] at written
    dsimp only at written
    cases isStored : toPython amount.toNumber >>= storedAmount with
    | error raised =>
        rw [isStored] at written
        cases written
    | ok amountDec =>
        rcases Python.bind_eq_ok.mp isStored with ⟨value, isValue, stored⟩
        exact ⟨value, amountDec, isValue, stored⟩
  rw [Preference.writes_eq rfl isValue stored] at isNew
  rcases new with _ | ⟨row, _ | ⟨second, rest⟩⟩
  · cases isNew
  · refine ⟨item, value, amountDec, isItem, unprotected, isValue, stored,
      cleared.tables.trans isSet.tables, cleared.grows.trans isSet.grows,
      isSet.others.trans cleared.others, row, isOwn, ?_, (isFresh row List.mem_cons_self).1, ?_,
      cleared.grows.trans (isFresh row List.mem_cons_self).2⟩
    · exact congrArg Prod.fst (List.cons.inj isNew).1
    · refine (isSet.inside row ?_).resolve_left ?_
      · rw [isOwn]
        exact List.mem_cons_self
      · rw [cleared.nil_of_cleared]
        exact List.not_mem_nil
  · cases (List.cons.inj isNew).2

theorem setDonation_returns {account : Account} (isTrue : amount.isTrue = true)
    (isAccount : shop.account "receivable" = .ok account)
    (isItem : iac.lineitemtypeNamed donationName shop.toDatabase = .ok item)
    (unprotected : Unprotected (iac.isFor item) shop)
    (isValue : toPython amount.toNumber = .ok value)
    (stored : storedAmount value = .ok amountDec) :
    ∃ done after, iac.setDonation amount shop = (.ok done, after) := by
  obtain ⟨_, between, clears⟩ := @setPreference_returns iac shop clearedDonation item account none
    isAccount isItem rfl (by simp [clearedDonation]) (Or.inl rfl)
    (by rw [removes_clearedDonation]; exact unprotected)
  rcases setPreference_eq_ok (Or.inl rfl) clears with ⟨same, isSame, cleared⟩
  cases isItem.symm.trans isSame
  have still : iac.lineitemtypeNamed donationName between.toDatabase = .ok item := by
    rw [lineitemtypeNamed_congr cleared.tables]
    exact isItem
  have isAmount : (chosenDonation amount).amount.mapM toPython = .ok (some value) := by
    rw [chosenDonation, Option.mapM_some, isValue]
    rfl
  obtain ⟨_, after, sets⟩ := @setPreference_returns iac between (chosenDonation amount) item account
    (some value) (by rw [cleared.tables]; exact isAccount) still isAmount
    (by simp [chosenDonation]) (Or.inr ⟨value, rfl, amountDec, stored⟩) (by
      intro payment isPayment isRemoved
      rw [removes, Bool.and_eq_true] at isRemoved
      have isView : (payment, between.optionOf payment.id) ∈ between.view (iac.isFor item) :=
        mem_view.mpr ⟨isPayment, isRemoved.1, rfl⟩
      rw [cleared.nil_of_cleared] at isView
      cases isView)
  refine ⟨⟨⟩, after, ?_⟩
  rw [setDonation, bind_of_ok clears, onlyIf, if_pos isTrue, bind_of_ok sets]
  rfl

end Setting

/-! ## One post -/

section Posting

variable {iac : IndividualAccountingController} {shop after : Shop} {item : LineItemType}
  {text other : String} {config : DonationConfiguration} {post : DonationPost}
  {amountDec : Amount}

/-- The tables of a student who has not paid: there is an account for the transfers, which only
refer to ids that were given away. -/
structure Unpaid (iac : IndividualAccountingController) (shop : Shop) : Prop where
  account : ∃ account, shop.account "receivable" = .ok account
  paidIn : ∀ transfer ∈ shop.transfers.rows, ∀ id ∈ transfer.paidIn, id < shop.transfers.next
  lineItem : ∀ transfer ∈ shop.transfers.rows, transfer.lineItem < shop.lineItemTypes.next
  unpaid : iac.amountPaid shop.toDatabase ≤ 0

theorem defaultPaymentsLineitemtype_withLineItemType :
    iac.defaultPaymentsLineitemtype (iac.withLineItemType text shop).toDatabase =
      iac.defaultPaymentsLineitemtype shop.toDatabase := by
  have rows : (iac.withLineItemType text shop).lineItemTypes.rows =
      shop.lineItemTypes.rows ++ [iac.newLineItemType text shop.lineItemTypes.next] := rfl
  rw [defaultPaymentsLineitemtype, newestLineitemtype, newestLineitemtype, rows,
    List.filter_append]
  simp [newLineItemType]

theorem Unpaid.ensured (unpaid : iac.Unpaid shop) : iac.Unpaid (iac.ensured text shop) := by
  rw [IndividualAccountingController.ensured]
  split
  next =>
    refine ⟨unpaid.account, unpaid.paidIn, ?_, ?_⟩
    · intro transfer isRow
      exact Nat.lt_succ_of_lt (unpaid.lineItem transfer isRow)
    · rw [amountPaid, payments, defaultPaymentsLineitemtype_withLineItemType]
      exact unpaid.unpaid
  next => exact unpaid

theorem IsGiven.old_or_new (given : iac.IsGiven item amountDec shop after) {transfer : Transfer}
    (isRow : transfer ∈ after.transfers.rows) :
    transfer ∈ shop.transfers.rows ∨
      iac.isFor item transfer = true ∧ transfer.paidIn = none ∧
        shop.transfers.next ≤ transfer.id := by
  cases mine : iac.isFor item transfer with
  | false =>
      have isView : (transfer, after.optionOf transfer.id) ∈
          after.view fun transfer => !iac.isFor item transfer :=
        mem_view.mpr ⟨isRow, by rw [mine]; rfl, rfl⟩
      rw [given.others] at isView
      exact Or.inl (mem_view.mp isView).1
  | true =>
      rcases given.own with ⟨row, isOwn, _, isUnpaid, inside, fresh⟩
      have isView : (transfer, after.optionOf transfer.id) ∈ after.view (iac.isFor item) :=
        mem_view.mpr ⟨isRow, mine, rfl⟩
      rw [isOwn] at isView
      cases List.mem_singleton.mp isView
      exact Or.inr ⟨rfl, isUnpaid, fresh⟩

theorem IsGiven.unpaid (given : iac.IsGiven item amountDec shop after)
    (isRow : item ∈ shop.lineItemTypes.rows) (unpaid : iac.Unpaid shop) : iac.Unpaid after where
  account := by
    rw [given.tables]
    exact unpaid.account
  paidIn := by
    intro transfer isTransfer id isId
    rcases given.old_or_new isTransfer with isOld | ⟨_, isUnpaid, _⟩
    · exact (unpaid.paidIn transfer isOld id isId).trans_le given.grows
    · rw [isUnpaid] at isId
      cases isId
  lineItem := by
    intro transfer isTransfer
    have sameItems : after.lineItemTypes = shop.lineItemTypes := by rw [given.tables]
    rw [sameItems]
    rcases given.old_or_new isTransfer with isOld | ⟨mine, _⟩
    · exact unpaid.lineItem transfer isOld
    · rw [isFor, decide_eq_true_eq] at mine
      rw [mine.2]
      exact shop.lineItemTypes.below item isRow
  unpaid := by
    have samePayments : iac.defaultPaymentsLineitemtype after.toDatabase =
        iac.defaultPaymentsLineitemtype shop.toDatabase := by
      rw [given.tables]
      rfl
    by_cases isPayments :
        some item.id = (iac.defaultPaymentsLineitemtype shop.toDatabase).map LineItemType.id
    · have none : iac.payments after.toDatabase = [] := by
        rw [payments, List.filter_eq_nil_iff]
        intro transfer isTransfer
        rw [decide_eq_true_eq, samePayments, ← isPayments]
        rintro ⟨isUser, sameItem, outside⟩
        rcases given.own with ⟨row, isOwn, _, _, inside, _⟩
        have isView : (transfer, after.optionOf transfer.id) ∈ after.view (iac.isFor item) := by
          refine mem_view.mpr ⟨isTransfer, ?_, rfl⟩
          rw [isFor, decide_eq_true_eq]
          exact ⟨isUser, Option.some_injective _ sameItem⟩
        rw [isOwn] at isView
        cases List.mem_singleton.mp isView
        exact inside outside
      rw [amountPaid, none]
      exact le_rfl
    · have same : iac.payments after.toDatabase = iac.payments shop.toDatabase := by
        have views := @view_congr shop after (fun transfer => transfer.user = some iac.user ∧
            some transfer.lineItem =
              (iac.defaultPaymentsLineitemtype shop.toDatabase).map LineItemType.id ∧
            transfer.source = none) _ given.others (by
          intro transfer holds
          rw [decide_eq_true_eq] at holds
          rw [Bool.not_eq_true', isFor, decide_eq_false_iff_not]
          rintro ⟨_, sameItem⟩
          rw [← sameItem] at isPayments
          exact isPayments holds.2.1)
        have rows := congrArg (List.map Prod.fst) views
        simp only [Shop.view, List.map_map] at rows
        rw [payments, payments, samePayments]
        simpa [Function.comp_def] using rows
      rw [amountPaid, same]
      exact unpaid.unpaid

theorem IsGiven.unprotected (given : iac.IsGiven item amountDec shop after)
    (unpaid : iac.Unpaid shop) : Unprotected (iac.isFor item) after := by
  intro payment isPayment mine transfer isRow marked
  have fresh : shop.transfers.next ≤ payment.id := by
    rcases given.own with ⟨row, isOwn, _, _, _, fresh⟩
    have isView : (payment, after.optionOf payment.id) ∈ after.view (iac.isFor item) :=
      mem_view.mpr ⟨isPayment, mine, rfl⟩
    rw [isOwn] at isView
    cases List.mem_singleton.mp isView
    exact fresh
  rcases given.old_or_new isRow with isOld | ⟨_, isUnpaid, _⟩
  · exact absurd (unpaid.paidIn transfer isOld _ marked) fresh.not_gt
  · rw [isUnpaid] at marked
    cases marked

theorem isDonation_iff {transfer : Transfer} : iac.isDonation text shop transfer = true ↔
    transfer.user = some iac.user ∧ ∃ item ∈ iac.named text shop, item.id = transfer.lineItem := by
  rw [isDonation, Bool.and_eq_true, decide_eq_true_eq, lineItemIs_iff]
  refine and_congr_right fun _ => exists_congr fun item => ?_
  rw [named, List.mem_filter]
  exact ⟨fun ⟨isRow, same, holds⟩ => ⟨⟨isRow, holds⟩, same⟩,
    fun ⟨⟨isRow, holds⟩, same⟩ => ⟨isRow, same, holds⟩⟩

theorem donated_ensured (unpaid : iac.Unpaid shop) :
    iac.donated other (iac.ensured text shop) = iac.donated other shop := by
  rw [IndividualAccountingController.ensured]
  split
  next =>
    refine congrArg (List.map _) (List.filter_congr fun transfer isRow => ?_)
    have below := unpaid.lineItem transfer isRow
    rw [Bool.eq_iff_iff, isDonation_iff, isDonation_iff, named_withLineItemType]
    refine and_congr_right fun _ => ⟨?_, ?_⟩
    · rintro ⟨item, isNamed, same⟩
      rcases List.mem_append.mp isNamed with isOld | isNew
      · exact ⟨item, isOld, same⟩
      · split at isNew
        next =>
          cases List.mem_singleton.mp isNew
          exact absurd same.symm below.ne
        next => cases isNew
    · rintro ⟨item, isNamed, same⟩
      exact ⟨item, List.mem_append_left _ isNamed, same⟩
  next => rfl

theorem IsGiven.donated_of_ne (given : iac.IsGiven item amountDec shop after)
    (isRow : item ∈ shop.lineItemTypes.rows) (different : item.text ≠ text) :
    iac.donated text after = iac.donated text shop := by
  have sameDonation : iac.isDonation text after = iac.isDonation text shop := by
    rw [given.tables]
    rfl
  have views := @view_congr shop after (iac.isDonation text shop) _ given.others (by
    intro transfer holds
    rcases (isDonation_iff.mp holds).2 with ⟨named, isNamed, same⟩
    rcases mem_named.mp isNamed with ⟨isNamedRow, _, sameText⟩
    rw [Bool.not_eq_true', isFor, decide_eq_false_iff_not]
    rintro ⟨_, sameItem⟩
    have same : item = named := Table.eq_of_key_eq isRow isNamedRow (sameItem.symm.trans same.symm)
    exact different (by rw [same, sameText]))
  have amounts := congrArg (List.map fun row : Transfer × Option ℕ =>
    (row.1.amountDec.cents : ℚ) / 100) views
  rw [donated, donated, sameDonation]
  simpa [Shop.view, Function.comp_def] using amounts

theorem IsGiven.donated_self (given : iac.IsGiven item amountDec shop after)
    (isItem : item ∈ iac.named text shop) (single : (iac.named text shop).length ≤ 1) :
    iac.donated text after = [(amountDec.cents : ℚ) / 100] := by
  have only : iac.named text shop = [item] := by
    rcases listed : iac.named text shop with _ | ⟨first, _ | ⟨second, rest⟩⟩
    · rw [listed] at isItem
      cases isItem
    · rw [listed] at isItem
      rw [List.mem_singleton.mp isItem]
    · rw [listed] at single
      simp at single
  have sameNamed : iac.named text after = iac.named text shop := by
    rw [given.tables]
    rfl
  have sameDonation : iac.isDonation text after = iac.isFor item := by
    funext transfer
    rw [Bool.eq_iff_iff, isDonation_iff, sameNamed, only, isFor, decide_eq_true_eq]
    simp [eq_comm]
  rcases given.own with ⟨row, isOwn, isAmount, _⟩
  have amounts := congrArg (List.map fun row : Transfer × Option ℕ =>
    (row.1.amountDec.cents : ℚ) / 100) isOwn
  rw [donated, sameDonation]
  simpa [Shop.view, Function.comp_def, isAmount] using amounts

theorem lineitemtypeNamed_withLineItemType (different : text ≠ other) :
    iac.lineitemtypeNamed other (iac.withLineItemType text shop).toDatabase =
      iac.lineitemtypeNamed other shop.toDatabase := by
  have rows : (iac.withLineItemType text shop).lineItemTypes.rows =
      shop.lineItemTypes.rows ++ [iac.newLineItemType text shop.lineItemTypes.next] := rfl
  have elsewhere : (iac.newLineItemType text shop.lineItemTypes.next).text ≠ other := different
  rw [lineitemtypeNamed, lineitemtypeNamed, newestOfEach, newestOfEach, rows, List.filter_append,
    List.filter_cons_of_neg (by simp [elsewhere]), List.filter_nil, List.append_nil]

/-- Looking for a line item does not change whether transfers are protected. -/
theorem unprotected_ensured (unpaid : iac.Unpaid shop) :
    (∀ item, iac.lineitemtypeNamed donationName (iac.ensured text shop).toDatabase = .ok item →
        Unprotected (iac.isFor item) (iac.ensured text shop)) ↔
      ∀ item, iac.lineitemtypeNamed donationName shop.toDatabase = .ok item →
        Unprotected (iac.isFor item) shop := by
  rw [IndividualAccountingController.ensured]
  split
  next absent =>
    by_cases same : text = donationName
    · subst same
      refine iff_of_true (fun item isItem payment isPayment mine => ?_) fun item isItem => ?_
      · rcases lineitemtypeNamed_eq_ok isItem with ⟨sameText, isMember⟩
        rcases mem_getLineitemtypes isMember with ⟨isRow, query⟩
        rw [lineitemtypesQ, decide_eq_true_eq] at query
        have isNamed : item ∈ iac.named donationName (iac.withLineItemType donationName shop) :=
          mem_named.mpr ⟨isRow, query.1, sameText⟩
        rw [named_withLineItemType, if_pos rfl, absent, List.nil_append] at isNamed
        cases List.mem_singleton.mp isNamed
        rw [isFor, decide_eq_true_eq] at mine
        exact absurd mine.2 (unpaid.lineItem payment isPayment).ne
      · exact absurd absent (lineitemtypeNamed_donation.mp ⟨item, isItem⟩)
    · rw [lineitemtypeNamed_withLineItemType same]
      exact Iff.rfl
  next => exact Iff.rfl

theorem named_donation_ensured : iac.named donationName (iac.ensured text shop) ≠ [] ↔
    iac.named donationName shop ≠ [] ∨ text = donationName := by
  by_cases same : text = donationName
  · rw [same]
    exact iff_of_true named_ensured_self (Or.inr rfl)
  · rw [named_ensured_of_ne same]
    exact (or_iff_left same).symm

theorem donation_eq_ok {done : PUnit} (unpaid : iac.Unpaid shop)
    (valid : (config.settings post.page).form post ≠ .ok none) :
    iac.donation config post shop = (.ok done, after) ↔
      iac.Opens config shop post.page ∧
        (∀ option ∈ (config.settings post.page).donationOptions,
          ∃ text, option.choice = .ok text) ∧
        post.amount.isTrue = true ∧
        iac.setDonation post.amount
          (iac.ensured (config.settings post.page).donationText shop) = (.ok done, after) := by
  have looks (item : LineItemType) :
      ∃ current, iac.currentDonation item
        (iac.ensured (config.settings post.page).donationText shop) =
          (.ok current, iac.ensured (config.settings post.page).donationText shop) := by
    rcases unpaid.ensured.account with ⟨account, isAccount⟩
    rw [currentDonation, bind_of_ok (onTables_defaultSourceAccount.mpr ⟨isAccount, rfl⟩)]
    exact ⟨_, rfl⟩
  constructor
  · intro run
    rcases Action.bind_eq_ok.mp run with ⟨opened, between, opens, afterOpen⟩
    rcases Action.bind_eq_ok.mp afterOpen with ⟨item, found, gets, afterItem⟩
    rcases (openPage_eq_ok unpaid.unpaid).mp ⟨opened, between, item, opens, gets⟩ with
      ⟨isOpen, rfl⟩
    rcases looks item with ⟨current, isCurrent⟩
    rw [bind_of_ok isCurrent] at afterItem
    rcases lift_bind_eq_ok.mp afterItem with ⟨result, isForm, sets⟩
    rcases (form_eq_ok valid).mp isForm with ⟨labels, rfl, isTrue⟩
    exact ⟨isOpen, labels, isTrue, sets⟩
  · rintro ⟨isOpen, labels, isTrue, sets⟩
    rcases (openPage_eq_ok unpaid.unpaid).mpr ⟨isOpen, rfl⟩ with
      ⟨opened, between, item, opens, gets⟩
    rcases looks item with ⟨current, isCurrent⟩
    rw [donation, bind_of_ok opens, bind_of_ok gets, bind_of_ok isCurrent,
      (form_eq_ok valid).mpr ⟨labels, rfl, isTrue⟩, lift_ok_bind]
    exact sets

theorem donation_gives {done : PUnit} (unpaid : iac.Unpaid shop)
    (valid : (config.settings post.page).form post ≠ .ok none)
    (run : iac.donation config post shop = (.ok done, after)) :
    iac.Accepts config shop post ∧ ∃ item value amountDec,
      iac.lineitemtypeNamed donationName
        (iac.ensured (config.settings post.page).donationText shop).toDatabase = .ok item ∧
      Unprotected (iac.isFor item) (iac.ensured (config.settings post.page).donationText shop) ∧
      toPython post.amount.toNumber = .ok value ∧ storedAmount value = .ok amountDec ∧
      iac.IsGiven item amountDec (iac.ensured (config.settings post.page).donationText shop)
        after := by
  rcases (donation_eq_ok unpaid valid).mp run with ⟨opens, labels, isTrue, sets⟩
  rcases setDonation_eq_ok isTrue sets with
    ⟨item, value, amountDec, isItem, unprotected, isValue, stored, given⟩
  exact ⟨⟨opens.setUp, labels, opens.single, opens.optional, value, amountDec, isValue, stored⟩,
    item, value, amountDec, isItem, unprotected, isValue, stored, given⟩

theorem donation_returns_iff (unpaid : iac.Unpaid shop)
    (valid : (config.settings post.page).form post ≠ .ok none) :
    (∃ done after, iac.donation config post shop = (.ok done, after)) ↔
      iac.Accepts config shop post ∧
        (iac.named donationName shop ≠ [] ∨
          (config.settings post.page).donationText = donationName) ∧
        ∀ item, iac.lineitemtypeNamed donationName shop.toDatabase = .ok item →
          Unprotected (iac.isFor item) shop := by
  constructor
  · rintro ⟨done, after, run⟩
    rcases donation_gives unpaid valid run with
      ⟨accepts, item, value, amountDec, isItem, unprotected, _⟩
    refine ⟨accepts, named_donation_ensured.mp (lineitemtypeNamed_donation.mp ⟨item, isItem⟩),
      unprotected_ensured unpaid |>.mp fun other (isOther : iac.lineitemtypeNamed donationName
        (iac.ensured (config.settings post.page).donationText shop).toDatabase = .ok other) => ?_⟩
    cases isItem.symm.trans isOther
    exact unprotected
  · rintro ⟨accepts, literal, unprotected⟩
    rcases lineitemtypeNamed_donation.mpr (named_donation_ensured.mpr literal) with ⟨item, isItem⟩
    rcases accepts.stored with ⟨value, amountDec, isValue, stored⟩
    rcases unpaid.ensured.account with ⟨account, isAccount⟩
    have isTrue : post.amount.isTrue = true := by
      rcases form_returns.mpr accepts.labels with ⟨result, isForm⟩
      exact ((form_eq_ok valid).mp isForm).2.2
    rcases setDonation_returns isTrue isAccount isItem
      ((unprotected_ensured unpaid).mpr unprotected item isItem) isValue stored with
      ⟨done, after, sets⟩
    exact ⟨done, after, (donation_eq_ok unpaid valid).mpr
      ⟨⟨accepts.setUp, accepts.single, accepts.optional⟩, accepts.labels, isTrue, sets⟩⟩

end Posting

/-! ## Several posts -/

section Posts

variable {iac : IndividualAccountingController} {shop between after : Shop}
  {config : DonationConfiguration} {first post last : DonationPost} {posts rest : List DonationPost}
  {text : String}

structure Leaves (iac : IndividualAccountingController) (config : DonationConfiguration)
    (first : DonationPost) (shop between : Shop) : Prop where
  unpaid : iac.Unpaid between
  named : ∀ text, iac.named text between =
    iac.named text (iac.ensured (config.settings first.page).donationText shop)
  literal : iac.named donationName between ≠ []
  unprotected : ∀ item, iac.lineitemtypeNamed donationName between.toDatabase = .ok item →
    Unprotected (iac.isFor item) between
  others : ∀ text, text ≠ donationName → iac.donated text between = iac.donated text shop

theorem donation_leaves {done : PUnit} (unpaid : iac.Unpaid shop)
    (valid : (config.settings first.page).form first ≠ .ok none)
    (run : iac.donation config first shop = (.ok done, between)) :
    iac.Leaves config first shop between := by
  rcases donation_gives unpaid valid run with
    ⟨_, item, value, amountDec, isItem, _, _, _, given⟩
  rcases lineitemtypeNamed_eq_ok isItem with ⟨sameText, isMember⟩
  have isRow := (mem_getLineitemtypes isMember).1
  have sameNamed (text : String) : iac.named text between =
      iac.named text (iac.ensured (config.settings first.page).donationText shop) := by
    rw [given.tables]
    rfl
  refine ⟨given.unpaid isRow unpaid.ensured, sameNamed, ?_, ?_, ?_⟩
  · rw [sameNamed]
    exact lineitemtypeNamed_donation.mp ⟨item, isItem⟩
  · intro other isOther
    rw [lineitemtypeNamed_congr given.tables] at isOther
    cases isItem.symm.trans isOther
    exact given.unprotected unpaid.ensured
  · intro text different
    rw [given.donated_of_ne isRow (by rw [sameText]; exact different.symm),
      donated_ensured unpaid]

theorem Leaves.accepts_iff (leaves : iac.Leaves config first shop between) :
    iac.Accepts config between post ↔ iac.Accepts config shop post := by
  have same : (iac.named (config.settings post.page).donationText between).length ≤ 1 ↔
        (iac.named (config.settings post.page).donationText shop).length ≤ 1 := by
    rw [leaves.named, ensured]
    split
    next absent =>
      rw [named_withLineItemType]
      by_cases sameText :
          (config.settings first.page).donationText = (config.settings post.page).donationText
      · rw [← sameText, absent]
        simp
      · rw [if_neg sameText, List.append_nil]
    next => exact Iff.rfl
  have optional : (∀ item ∈ iac.named (config.settings post.page).donationText between,
        item.required = false) ↔
      ∀ item ∈ iac.named (config.settings post.page).donationText shop, item.required = false := by
    rw [leaves.named, ensured]
    split
    next absent =>
      rw [named_withLineItemType]
      by_cases sameText :
          (config.settings first.page).donationText = (config.settings post.page).donationText
      · rw [← sameText, absent]
        simp [newLineItemType]
      · rw [if_neg sameText, List.append_nil]
    next => exact Iff.rfl
  constructor
  · rintro ⟨setUp, labels, single, isOptional, stored⟩
    exact ⟨setUp, labels, same.mp single,
      fun isCard offers => optional.mp (isOptional isCard offers), stored⟩
  · rintro ⟨setUp, labels, single, isOptional, stored⟩
    exact ⟨setUp, labels, same.mpr single,
      fun isCard offers => optional.mpr (isOptional isCard offers), stored⟩

theorem donations_returns_iff (unpaid : iac.Unpaid shop)
    (valid : ∀ post ∈ first :: rest, (config.settings post.page).form post ≠ .ok none) :
    (∃ done after, iac.donations config (first :: rest) shop = (.ok done, after)) ↔
      (∀ post ∈ first :: rest, iac.Accepts config shop post) ∧
        (iac.named donationName shop ≠ [] ∨
          (config.settings first.page).donationText = donationName) ∧
        ∀ item, iac.lineitemtypeNamed donationName shop.toDatabase = .ok item →
          Unprotected (iac.isFor item) shop := by
  induction rest generalizing shop first with
  | nil =>
      rw [List.forall_mem_singleton] at valid ⊢
      rw [← donation_returns_iff unpaid valid]
      constructor
      · rintro ⟨done, after, run⟩
        rcases forEach_cons_eq_ok.mp run with ⟨next, between, step, loop⟩
        exact ⟨next, between, step⟩
      · rintro ⟨done, after, step⟩
        exact ⟨done, after, forEach_cons_eq_ok.mpr ⟨done, after, step, rfl⟩⟩
  | cons second rest ih =>
      rw [List.forall_mem_cons] at valid
      rw [List.forall_mem_cons, and_assoc]
      have steps := donation_returns_iff unpaid valid.1
      constructor
      · rintro ⟨done, after, run⟩
        rcases forEach_cons_eq_ok.mp run with ⟨next, between, step, loop⟩
        have leaves := donation_leaves unpaid valid.1 step
        rcases steps.mp ⟨next, between, step⟩ with ⟨accepts, literal, unprotected⟩
        rcases (ih leaves.unpaid valid.2).mp ⟨done, after, loop⟩ with ⟨others, _⟩
        exact ⟨accepts, fun post isPost => leaves.accepts_iff.mp (others post isPost), literal,
          unprotected⟩
      · rintro ⟨accepts, others, literal, unprotected⟩
        rcases steps.mpr ⟨accepts, literal, unprotected⟩ with ⟨next, between, step⟩
        have leaves := donation_leaves unpaid valid.1 step
        rcases (ih leaves.unpaid valid.2).mpr
          ⟨fun post isPost => leaves.accepts_iff.mpr (others post isPost), Or.inl leaves.literal,
            leaves.unprotected⟩ with ⟨done, after, loop⟩
        exact ⟨done, after, forEach_cons_eq_ok.mpr ⟨next, between, step, loop⟩⟩

theorem isDonated_congr {chosen : Option PyNumber}
    (same : iac.donated text after = iac.donated text shop) :
    iac.IsDonated text chosen after ↔ iac.IsDonated text chosen shop := by
  unfold IsDonated
  rw [same]

theorem isDonated_iff {done : PUnit} (unpaid : iac.Unpaid shop)
    (valid : (config.settings last.page).form last ≠ .ok none)
    (run : iac.donation config last shop = (.ok done, after)) :
    iac.IsDonated (config.settings last.page).donationText last.chosen after ↔
      iac.LastDonated config last shop := by
  rcases donation_gives unpaid valid run with
    ⟨accepts, item, value, amountDec, isItem, _, isValue, stored, given⟩
  rw [LastDonated]
  split
  next isLiteral =>
    rcases lineitemtypeNamed_eq_ok isItem with ⟨sameText, isMember⟩
    rcases mem_getLineitemtypes isMember with ⟨isRow, query⟩
    rw [lineitemtypesQ, decide_eq_true_eq] at query
    have isNamed : item ∈ iac.named donationName
        (iac.ensured (config.settings last.page).donationText shop) :=
      mem_named.mpr ⟨isRow, query.1, sameText⟩
    have single : (iac.named donationName
        (iac.ensured (config.settings last.page).donationText shop)).length ≤ 1 := by
      have before := accepts.single
      rw [isLiteral] at before ⊢
      rw [ensured]
      split
      next absent =>
        rw [named_withLineItemType, absent, if_pos rfl]
        exact le_rfl
      next => exact before
    have amounts := given.donated_self isNamed single
    rw [isLiteral]
    cases isChosen : last.chosen with
    | none =>
        rw [IsDonated, amounts]
        simp
    | some number =>
        have same : number = last.amount.toNumber := by
          rw [DonationPost.chosen] at isChosen
          split at isChosen
          next => cases isChosen
          next => exact (Option.some.inj isChosen).symm
        subst same
        rw [IsDonated, amounts]
        constructor
        · rintro ⟨other, isOther, positive, sameAmount⟩
          refine ⟨_, amountDec, rfl, ?_, ?_⟩
          · rw [isOther, (List.cons.inj sameAmount).1]
          · rw [← (List.cons.inj sameAmount).1] at positive
            have cents : (0 : ℚ) < amountDec.cents := by linarith
            exact_mod_cast cents
        · rintro ⟨_, amount, isSame, isAmount, positive⟩
          cases isSame
          cases isValue.symm.trans isAmount
          have cents : (0 : ℚ) < amount.cents := by exact_mod_cast positive
          rw [storedAmount_cents] at stored
          cases stored
          exact ⟨_, isAmount, by linarith, rfl⟩
  next different =>
    exact isDonated_congr ((donation_leaves unpaid valid run).others _ different)

theorem donations_isDonated_iff {done : PUnit} (unpaid : iac.Unpaid shop)
    (valid : ∀ post ∈ posts, (config.settings post.page).form post ≠ .ok none)
    (isLast : posts.getLast? = some last)
    (run : iac.donations config posts shop = (.ok done, after)) :
    iac.IsDonated (config.settings last.page).donationText last.chosen after ↔
      iac.LastDonated config last shop := by
  induction posts generalizing shop with
  | nil => cases isLast
  | cons first rest ih =>
      rw [List.forall_mem_cons] at valid
      rcases forEach_cons_eq_ok.mp run with ⟨next, between, step, loop⟩
      cases rest with
      | nil =>
          cases isLast
          cases loop
          exact isDonated_iff unpaid valid.1 step
      | cons second others =>
          have leaves := donation_leaves unpaid valid.1 step
          rw [List.getLast?_cons_cons] at isLast
          rw [ih leaves.unpaid valid.2 isLast loop, LastDonated, LastDonated]
          split
          next => exact Iff.rfl
          next different => exact isDonated_congr (leaves.others _ different)

/-- Valid posts of a student who has not paid go through and end in what was chosen last, exactly
under the condition. -/
theorem donations_donated_iff (unpaid : iac.Unpaid shop)
    (valid : ∀ post ∈ posts, (config.settings post.page).form post ≠ .ok none)
    (isLast : posts.getLast? = some last) :
    (∃ done after, iac.donations config posts shop = (.ok done, after) ∧
        iac.IsDonated (config.settings last.page).donationText last.chosen after) ↔
      iac.Donatable config posts last shop := by
  rcases posts with _ | ⟨first, rest⟩
  · cases isLast
  · have returns := donations_returns_iff unpaid valid
    constructor
    · rintro ⟨done, after, run, isDonated⟩
      rcases returns.mp ⟨done, after, run⟩ with ⟨accepts, literal, unprotected⟩
      refine ⟨accepts, literal.imp_right ?_, unprotected,
        (donations_isDonated_iff unpaid valid isLast run).mp isDonated⟩
      rintro sameText _ isFirst
      cases isFirst
      exact sameText
    · rintro ⟨accepts, literal, unprotected, isLastDonated⟩
      rcases returns.mpr ⟨accepts, literal.imp_right fun first => first _ rfl, unprotected⟩ with
        ⟨done, after, run⟩
      exact ⟨done, after, run, (donations_isDonated_iff unpaid valid isLast run).mpr isLastDonated⟩

end Posts

end IndividualAccountingController

namespace Sample

/-- A line item that a student pays what they like for. -/
def meal (id : ℕ) : LineItemType :=
  { id, text := "Meal", amountDec := dollars 5, program := 1, required := false,
    forPayments := false, forFinaid := false }

theorem id_meal (id : ℕ) : (meal id).id = id := rfl

/-- A T-shirt, and a meal whose one option has an amount of its own. -/
def shop (transfers : Table Transfer) (optionOf : ℕ → Option ℕ) : Shop where
  toDatabase := { database transfers with lineItemTypes := lineItemTypes.create meal id_meal }
  maxQuantity := fun _ => 1
  selectsMultiple := fun _ => false
  options := {
    rows := [{ id := 1, lineitemType := 4, amountDec := none, isCustom := true }]
    next := 2
    ordered := by decide
    below := by decide }
  optionOf := optionOf
  donationTexts := ["Donation to Learning Unlimited"]

/-- The student has chosen a meal for five dollars. -/
def hungry : Shop := shop {
    rows := [charge 1 7 1 (dollars 10 ten_fits), charge 2 7 4 (dollars 5)]
    next := 3
    ordered := by decide
    below := by decide } fun id => if id = 2 then some 1 else none

/-- The default settings. -/
def donationConfiguration : DonationConfiguration where
  settings := fun _ =>
    { donationText := donationName, donationOptions := [.int 10, .int 20, .int 50] }
  keysValid := true
  offerDonation := true

def twenty : DonationPost :=
  { page := .card, amountDonation := "20".toList, customAmount := .blank }

def twelve : DonationPost :=
  { page := .donation, amountDonation := "-1".toList, customAmount := .entered (dollars 12) }

def noDonation : DonationPost :=
  { page := .donation, amountDonation := "0".toList, customAmount := .blank }

theorem hungry_unpaid : (discounted 0).Unpaid hungry where
  account := ⟨{ id := 1, name := "receivable", program := none }, by decide⟩
  paidIn := by decide
  lineItem := by decide
  unpaid := by decide

/-- The last of two donations is the one that is left. -/
theorem twelve_donated :
    ∃ done after,
      (discounted 0).donations donationConfiguration [twenty, twelve] hungry = (.ok done, after) ∧
        (discounted 0).IsDonated donationName twelve.chosen after := by
  refine (@IndividualAccountingController.donations_donated_iff (discounted 0) hungry
    donationConfiguration twelve [twenty, twelve] hungry_unpaid (by decide) rfl).mpr ?_
  have accepts (post : DonationPost) (isPost : post ∈ [twenty, twelve]) :
      (discounted 0).Accepts donationConfiguration hungry post := by
    refine ⟨fun _ => rfl, ?_, ?_, ?_, ?_⟩
    · intro option isOption
      fin_cases isOption
      · exact ⟨"10".toList, by decide⟩
      · exact ⟨"20".toList, by decide⟩
      · exact ⟨"50".toList, by decide⟩
    · exact (by decide : ((discounted 0).named donationName hungry).length ≤ 1)
    · intro _ _ item isNamed
      have none : (discounted 0).named donationName hungry = [] := by decide
      have listed : item ∈ (discounted 0).named donationName hungry := isNamed
      rw [none] at listed
      cases listed
    · fin_cases isPost
      · exact ⟨20, dollars 20, by decide +kernel, by decide +kernel⟩
      · exact ⟨12, dollars 12, by decide +kernel, by decide +kernel⟩
  refine ⟨accepts, Or.inr fun first _ => rfl, ?_, ?_⟩
  · intro item isItem
    have absent : (discounted 0).named donationName hungry = [] := by decide
    exact absurd absent
      (IndividualAccountingController.lineitemtypeNamed_donation.mp ⟨item, isItem⟩)
  · have sameText : (donationConfiguration.settings twelve.page).donationText = donationName := rfl
    rw [IndividualAccountingController.LastDonated, if_pos sameText]
    exact ⟨_, dollars 12, rfl, by decide +kernel, by decide⟩

/-- The choice of no donation leaves a transfer of nothing. -/
theorem noDonation_given :
    (((discounted 0).donations donationConfiguration [twenty, noDonation] hungry).1.isOk = true) ∧
      ¬ (discounted 0).IsDonated donationName noDonation.chosen
        ((discounted 0).donations donationConfiguration [twenty, noDonation] hungry).2 := by
  constructor
  · decide +kernel
  · have chosen : noDonation.chosen = none := by decide
    rw [chosen, IndividualAccountingController.IsDonated]
    decide +kernel

end Sample

end EspWebsite.Accounting
