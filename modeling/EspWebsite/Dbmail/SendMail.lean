import EspWebsite.Library.Dicts
import EspWebsite.Library.Numerals
import EspWebsite.Library.Python
import EspWebsite.Users.Usernames

/-!
# Sending one mail

`send_mail` of `dbmail/models.py`.  The headers of a mail are collected in a dictionary: the one
that the call passes, or the default of the argument, of which a process has one.
-/

namespace EspWebsite.Dbmail

open Python Dicts Users

abbrev Text := List Char

abbrev Headers := Dict Text Text

/-! ## The sender -/

/-- What `send_mail` takes from elsewhere: `settings.SITE_INFO[1]`, the domain of the site,
`strip_tags` of Django, and what `\w` knows beyond ASCII. -/
structure Site where
  domain : Text
  stripTags : Text → Text
  unicode : Unicode

/-- `.+`. -/
def isDots (text : Text) : Bool := !text.isEmpty && '\n' ∉ text

def cuts (text : Text) : List (Text × Text) := text.inits.zip text.tails

/-- `(\w+\.)*learningu\.org`. -/
def isLearningu (unicode : Unicode) (text : Text) : Bool :=
  match (text.splitOn '.').reverse with
  | top :: name :: subdomains =>
      top = "org".toList && name = "learningu".toList &&
        subdomains.all fun subdomain => !subdomain.isEmpty && subdomain.all unicode.isWord
  | _ => false

/-- `^.+@` before a domain. -/
def isAddress (isDomain : Text → Bool) (text : Text) : Bool :=
  (cuts text).any fun (user, rest) =>
    isDots user && match rest with
      | '@' :: domain => isDomain domain
      | _ => false

/-- `^.+<.+@` before a domain, with `>` at the end. -/
def isNamedAddress (isDomain : Text → Bool) (text : Text) : Bool :=
  (cuts text).any fun (name, rest) =>
    isDots name && match rest with
      | '<' :: address => address.getLast? = some '>' && isAddress isDomain address.dropLast
      | _ => false

/-- The pattern that a stripped `from_email` has to match. -/
def isSender (site : Site) (fromEmail : Text) : Bool :=
  isAddress (· = site.domain) fromEmail || isNamedAddress (· = site.domain) fromEmail ||
    isAddress (isLearningu site.unicode) fromEmail ||
    isNamedAddress (isLearningu site.unicode) fromEmail

def invalidSender (site : Site) (fromEmail : Text) : PyError :=
  .raised "ESPError" <| "Invalid 'From' email address (" ++ String.ofList fromEmail ++
    "). The 'From' email address must end in @" ++ String.ofList site.domain ++
    " (your website), @learningu.org, or a valid subdomain of learningu.org " ++
    "(i.e., @subdomain.learningu.org)."

/-! ## The recipients -/

/-- `(.+)>` right after an opening bracket. -/
def inBrackets (rest : Text) : Option Text :=
  let inner := ((rest.takeWhile (· ≠ '\n')).rdropWhile (· ≠ '>')).dropLast
  if inner.isEmpty then none else some inner

/-- The group of `re.search('<(.+)>', x)`. -/
def search : Text → Option Text
  | [] => none
  | '<' :: rest => (inBrackets rest).or (search rest)
  | _ :: rest => search rest

/-- The address of a recipient: the part in angle brackets when there is one. -/
def address (x : Text) : Text := (search x).getD x

/-- The recipients so far, and `emails`, the addresses that still need one. -/
abbrev Collected := List Text × Finset Text

/-- The loop over `new_list`. -/
def collect (collected : Collected) (x : Text) : Collected :=
  let (recipients, emails) := collected
  match search x with
  | none => if x ∈ emails then (recipients ++ [x], emails.erase x) else collected
  | some tmp => if tmp ∈ emails then (recipients ++ [x], emails.erase tmp) else collected

/-- The recipients without duplicate addresses. -/
def deduplicate (newList : List Text) : List Text :=
  (newList.foldl collect ([], (newList.map address).toFinset)).1

/-- A recipient list: one text, or a list of them. -/
inductive RecipientList where
  | single (recipient : Text)
  | several (recipients : List Text)
deriving Repr, DecidableEq

def RecipientList.newList : RecipientList → List Text
  | .single recipient => [recipient]
  | .several recipients => recipients

/-! ## The body -/

/-- A character of `[\s>]`. -/
def endsTag (char : Char) : Bool := isSpace char || char = '>'

/-- `re.search(r'<html[\s>]', message, re.IGNORECASE)`. -/
def isHtml : Text → Bool
  | [] => false
  | char :: rest =>
      (((char :: rest).take 5).map Char.toLower = "<html".toList && (rest[4]?).any endsTag) ||
        isHtml rest

/-- `re.sub('[ \t]+', ' ', text)`. -/
def squeeze : Text → Text
  | [] => []
  | char :: rest =>
      if char = ' ' ∨ char = '\t' then
        if (rest.head?).any fun next => next = ' ' ∨ next = '\t' then squeeze rest
        else ' ' :: squeeze rest
      else char :: squeeze rest

/-- `text.replace('\n ', '\n')`. -/
def unindent : Text → Text
  | [] => []
  | '\n' :: ' ' :: rest => '\n' :: unindent rest
  | char :: rest => char :: unindent rest

def messageText (site : Site) (message : Text) : Text :=
  strip (unindent (squeeze (site.stripTags message)))

/-! ## The call -/

/-- The arguments of a call.  A dictionary is passed by its number; `user` is the link of
`unsubscribe_oneclick`, if there is a user. -/
structure Call where
  subject : Text
  message : Text
  from_email : Text
  recipient_list : RecipientList
  fail_silently : Bool
  bcc : Option (List Text)
  return_path : Text
  extra_headers : Option ℕ
  user : Option Text
deriving Repr, DecidableEq

/-- A message as it goes out, with an alternative in HTML if it has one, and what its connection
is made with. -/
structure EmailMessage where
  subject : Text
  body : Text
  from_email : Text
  recipients : List Text
  bcc : Option (List Text)
  connection : Bool × Text
  headers : Headers
  alternative : Option Text
deriving Repr, DecidableEq

/-- The dictionaries of a process; the default of `extra_headers` is that of no argument. -/
abbrev Dictionaries := Option ℕ → Headers

def replyTo : Text := "Reply-To".toList

def listUnsubscribe : Text := "List-Unsubscribe".toList

def listUnsubscribePost : Text := "List-Unsubscribe-Post".toList

/-- The value of `listUnsubscribePost`. -/
def oneClickPost : Text := "List-Unsubscribe=One-Click".toList

/-- `extra_headers['Reply-To'] = extra_headers['Reply-To'].strip()`, if it is there. -/
def stripReplyTo (headers : Headers) : Headers :=
  match get? headers replyTo with
  | some value => setItem headers replyTo (strip value)
  | none => headers

/-- The link to unsubscribe, as it stands in a header. -/
def oneClick (link : Text) : Text := '<' :: link ++ ['>']

def unsubscribe (link : Text) (headers : Headers) : Headers :=
  setItem (setItem headers listUnsubscribePost oneClickPost)
    listUnsubscribe (oneClick link)

/-- The headers with those for the user, if there is one. -/
def unsubscribeFor : Option Text → Headers → Headers
  | some link, headers => unsubscribe link headers
  | none, headers => headers

/-- The dictionary of headers after the call has written to it. -/
def Call.headers (call : Call) (headers : Headers) : Headers :=
  unsubscribeFor call.user (stripReplyTo headers)

/-- The message that goes out with some headers. -/
def Call.email (site : Site) (call : Call) (headers : Headers) : EmailMessage where
  subject := call.subject
  body := if isHtml call.message then messageText site call.message else call.message
  from_email := strip call.from_email
  recipients := deduplicate call.recipient_list.newList
  bcc := call.bcc
  connection := (call.fail_silently, call.return_path)
  headers := headers
  alternative := if isHtml call.message then some call.message else none

/-- `send_mail`: the dictionaries after the call, and the message that it sends. -/
def sendMail (site : Site) (dictionaries : Dictionaries) (call : Call) :
    Dictionaries × Raises EmailMessage :=
  let fromEmail := strip call.from_email
  if isSender site fromEmail then
    let headers := call.headers (dictionaries call.extra_headers)
    (Function.update dictionaries call.extra_headers headers, .ok (call.email site headers))
  else (dictionaries, .error (invalidSender site fromEmail))

/-! ## One recipient for each address -/

/-- The recipients are some of those that are given, in their order, one for each address. -/
structure OnePerAddress (newList recipients : List Text) : Prop where
  sublist : recipients.Sublist newList
  nodup : (recipients.map address).Nodup
  covers : ∀ x ∈ newList, address x ∈ recipients.map address

instance (newList recipients : List Text) : Decidable (OnePerAddress newList recipients) :=
  decidable_of_iff (recipients.Sublist newList ∧ (recipients.map address).Nodup ∧
      ∀ x ∈ newList, address x ∈ recipients.map address)
    ⟨fun ⟨sublist, nodup, covers⟩ => ⟨sublist, nodup, covers⟩,
      fun ⟨sublist, nodup, covers⟩ => ⟨sublist, nodup, covers⟩⟩

theorem collect_eq (collected : Collected) (x : Text) : collect collected x =
    if address x ∈ collected.2 then (collected.1 ++ [x], collected.2.erase (address x))
    else collected := by
  cases found : search x with
  | none => simp [collect, address, found]
  | some tmp => simp [collect, address, found]

/-- What the loop adds to the recipients that it has: those that come first with an address that
needs one. -/
theorem foldl_collect (recipients : List Text) (emails : Finset Text) (newList : List Text) :
    ∃ added, (newList.foldl collect (recipients, emails)).1 = recipients ++ added ∧
      added.Sublist newList ∧ (added.map address).Nodup ∧
      (∀ x ∈ added, address x ∈ emails) ∧
      ∀ x ∈ newList, address x ∈ emails → address x ∈ added.map address := by
  induction newList generalizing recipients emails with
  | nil => exact ⟨[], by simp⟩
  | cons x rest ih =>
      by_cases needed : address x ∈ emails
      · obtain ⟨added, made, sublist, nodup, within, covers⟩ :=
          ih (recipients ++ [x]) (emails.erase (address x))
        refine ⟨x :: added, ?_, sublist.cons_cons x, ?_, ?_, ?_⟩
        · simpa [collect_eq, needed] using made
        · have fresh : address x ∉ added.map address := by
            intro isAdded
            obtain ⟨later, isLater, same⟩ := List.mem_map.mp isAdded
            exact Finset.ne_of_mem_erase (within later isLater) same
          simpa using ⟨by simpa using fresh, nodup⟩
        · intro later isLater
          rcases List.mem_cons.mp isLater with rfl | isLater
          · exact needed
          · exact Finset.mem_of_mem_erase (within later isLater)
        · intro later isLater isNeeded
          by_cases same : address later = address x
          · simp [same]
          · rcases List.mem_cons.mp isLater with rfl | isLater
            · exact absurd rfl same
            · have := covers later isLater (Finset.mem_erase.mpr ⟨same, isNeeded⟩)
              simp only [List.map_cons, List.mem_cons]
              exact .inr this
      · obtain ⟨added, made, sublist, nodup, within, covers⟩ := ih recipients emails
        refine ⟨added, ?_, sublist.cons x, nodup, within, ?_⟩
        · simpa [collect_eq, needed] using made
        · intro later isLater isNeeded
          rcases List.mem_cons.mp isLater with rfl | isLater
          · exact absurd isNeeded needed
          · exact covers later isLater isNeeded

theorem onePerAddress_deduplicate (newList : List Text) :
    OnePerAddress newList (deduplicate newList) := by
  obtain ⟨added, made, sublist, nodup, -, covers⟩ :=
    foldl_collect [] (newList.map address).toFinset newList
  have same : deduplicate newList = added := by simpa [deduplicate] using made
  rw [same]
  exact ⟨sublist, nodup, fun x isGiven => covers x isGiven (by simpa using ⟨x, isGiven, rfl⟩)⟩

/-! ## What calls leave in the dictionaries -/

/-- What happens in a process: other code makes a dictionary, or writes to one, and mails are
sent. -/
inductive Action where
  | write (dictionary : ℕ) (headers : Headers)
  | send (call : Call)
deriving Repr, DecidableEq

namespace Action

def isWrite : Action → Bool
  | .write _ _ => true
  | .send _ => false

end Action

/-- The dictionaries after an action. -/
def act (site : Site) (dictionaries : Dictionaries) : Action → Dictionaries
  | .write dictionary headers => Function.update dictionaries (some dictionary) headers
  | .send call => (sendMail site dictionaries call).1

/-- The dictionaries of a process after some actions.  It begins with empty ones. -/
def process (site : Site) (actions : List Action) : Dictionaries :=
  actions.foldl (act site) fun _ => []

def written (site : Site) (actions : List Action) : Dictionaries :=
  process site (actions.filter Action.isWrite)

/-- Each call of a process ends as if there had been no call before it, and what it sends has one
recipient for each address. -/
def OwnArguments (site : Site) (actions : List Action) : Prop :=
  ∀ before call, before ++ [.send call] <+: actions →
    (sendMail site (process site before) call).2 = (sendMail site (written site before) call).2 ∧
      ∀ email, (sendMail site (process site before) call).2 = .ok email →
        OnePerAddress call.recipient_list.newList email.recipients

/-- The last link that a call that sends its mail has put into a dictionary since other code wrote
to it. -/
def lastLink (site : Site) (dictionary : Option ℕ) (link : Option Text) : Action → Option Text
  | .write other _ => if some other = dictionary then none else link
  | .send call =>
      if isSender site (strip call.from_email) ∧ call.extra_headers = dictionary then
        call.user.or link
      else link

/-- A dictionary in which calls have left a link, and that other code has not written since. -/
def leftLink (site : Site) (actions : List Action) (dictionary : Option ℕ) : Option Text :=
  actions.foldl (lastLink site dictionary) none

/-- No mail without a user is sent with a dictionary in which an earlier call has left its headers,
unless other code has put the same headers there. -/
def NoLinksLeft (site : Site) (actions : List Action) : Prop :=
  ∀ before call, before ++ [.send call] <+: actions →
    isSender site (strip call.from_email) → call.user = none →
      ∀ link ∈ leftLink site before call.extra_headers,
        get? (written site before call.extra_headers) listUnsubscribePost =
            some oneClickPost ∧
          get? (written site before call.extra_headers) listUnsubscribe =
            some (oneClick link)

variable {site : Site} {headers : Headers} {link other : Text} {user left : Option Text}
  {actions : List Action} {dictionary : Option ℕ} {call : Call}

theorem get?_stripReplyTo {name : Text} (different : replyTo ≠ name) :
    get? (stripReplyTo headers) name = get? headers name := by
  unfold stripReplyTo
  split
  · exact get?_setItem_of_ne different
  · rfl

theorem stripReplyTo_stripReplyTo : stripReplyTo (stripReplyTo headers) = stripReplyTo headers := by
  cases found : get? headers replyTo with
  | none => simp [stripReplyTo, found]
  | some value => simp [stripReplyTo, found, strip_strip]

theorem stripReplyTo_setItem {name value : Text} (different : replyTo ≠ name) :
    stripReplyTo (setItem headers name value) = setItem (stripReplyTo headers) name value := by
  have kept := @get?_setItem_of_ne _ _ _ headers name replyTo value different.symm
  cases found : get? headers replyTo with
  | none => simp [stripReplyTo, kept, found]
  | some value =>
      simp only [stripReplyTo, kept, found]
      exact (setItem_comm different (by simp [found])).symm

theorem stripReplyTo_unsubscribeFor :
    stripReplyTo (unsubscribeFor user headers) = unsubscribeFor user (stripReplyTo headers) := by
  cases user with
  | none => rfl
  | some link =>
      simp only [unsubscribeFor, unsubscribe]
      rw [stripReplyTo_setItem (by decide), stripReplyTo_setItem (by decide)]

theorem get?_unsubscribe :
    get? (unsubscribe link headers) listUnsubscribePost =
        some oneClickPost ∧
      get? (unsubscribe link headers) listUnsubscribe = some (oneClick link) := by
  constructor
  · rw [unsubscribe, get?_setItem_of_ne (by decide), get?_setItem_self]
  · rw [unsubscribe, get?_setItem_self]

theorem unsubscribe_eq_self_iff : unsubscribe link headers = headers ↔
    get? headers listUnsubscribePost = some oneClickPost ∧
      get? headers listUnsubscribe = some (oneClick link) := by
  constructor
  · intro same
    have holds := @get?_unsubscribe headers link
    rwa [same] at holds
  · rintro ⟨post, isLink⟩
    rw [unsubscribe, setItem_eq_self_iff.mpr post, setItem_eq_self_iff.mpr isLink]

/-- The link of a later user takes the place of an earlier one. -/
theorem unsubscribe_unsubscribe : unsubscribe link (unsubscribe other headers) =
    unsubscribe link headers := by
  have post := setItem_eq_self_iff.mpr (@get?_unsubscribe headers other).1
  rw [unsubscribe, post, unsubscribe, setItem_setItem, ← unsubscribe]

theorem unsubscribeFor_unsubscribeFor :
    unsubscribeFor user (unsubscribeFor left headers) = unsubscribeFor (user.or left) headers := by
  cases user with
  | none => rfl
  | some link =>
      cases left with
      | none => rfl
      | some other => exact unsubscribe_unsubscribe

@[simp] theorem process_nil : process site [] dictionary = [] := rfl

theorem process_concat (action : Action) :
    process site (actions ++ [action]) = act site (process site actions) action := by
  simp [process]

theorem written_write (number : ℕ) : written site (actions ++ [.write number headers]) =
    Function.update (written site actions) (some number) headers := by
  have kept : (actions ++ [Action.write number headers]).filter Action.isWrite =
      actions.filter Action.isWrite ++ [Action.write number headers] := by
    simp [Action.isWrite]
  rw [written, kept, process_concat]
  rfl

theorem written_send : written site (actions ++ [.send call]) = written site actions := by
  simp [written, Action.isWrite]

theorem leftLink_concat (action : Action) : leftLink site (actions ++ [action]) dictionary =
    lastLink site dictionary (leftLink site actions dictionary) action := by
  simp [leftLink]

/-- A dictionary differs from what other code has put there only in the last link and in the
spaces around `Reply-To`. -/
theorem stripReplyTo_process : stripReplyTo (process site actions dictionary) =
    unsubscribeFor (leftLink site actions dictionary)
      (stripReplyTo (written site actions dictionary)) := by
  induction actions using List.reverseRecOn with
  | nil => rfl
  | append_singleton actions action ih =>
      rw [process_concat, leftLink_concat]
      cases action with
      | write number headers =>
          rw [written_write]
          by_cases same : some number = dictionary
          · subst same
            simp [act, lastLink, unsubscribeFor]
          · simpa [act, lastLink, same, Function.update_of_ne (Ne.symm same)] using ih
      | send call =>
          rw [written_send]
          by_cases accepted : isSender site (strip call.from_email)
          · by_cases same : call.extra_headers = dictionary
            · subst same
              simp only [act, sendMail, lastLink, accepted, if_true, and_self,
                Function.update_self, Call.headers]
              rw [stripReplyTo_unsubscribeFor, stripReplyTo_stripReplyTo, ih,
                unsubscribeFor_unsubscribeFor]
            · simpa [act, sendMail, lastLink, accepted, same,
                Function.update_of_ne (Ne.symm same)] using ih
          · simpa [act, sendMail, lastLink, accepted] using ih

theorem sendMail_eq_iff {left right : Dictionaries}
    (accepted : isSender site (strip call.from_email)) :
    (sendMail site left call).2 = (sendMail site right call).2 ↔
      call.headers (left call.extra_headers) = call.headers (right call.extra_headers) := by
  constructor
  · intro same
    simp only [sendMail, accepted, if_true, Except.ok.injEq] at same
    exact congrArg EmailMessage.headers same
  · intro same
    simp [sendMail, accepted, same]

/-- The mails of a process depend on their own calls exactly if no link is left that a mail without
a user takes with it. -/
theorem ownArguments_iff : OwnArguments site actions ↔ NoLinksLeft site actions := by
  have each (before : List Action) (call : Call) :
      ((sendMail site (process site before) call).2 =
          (sendMail site (written site before) call).2 ∧
        ∀ email, (sendMail site (process site before) call).2 = .ok email →
          OnePerAddress call.recipient_list.newList email.recipients) ↔
      (isSender site (strip call.from_email) → call.user = none →
        ∀ link ∈ leftLink site before call.extra_headers,
          get? (written site before call.extra_headers) listUnsubscribePost =
              some oneClickPost ∧
            get? (written site before call.extra_headers) listUnsubscribe =
              some (oneClick link)) := by
    have recipients : ∀ email, (sendMail site (process site before) call).2 = .ok email →
        OnePerAddress call.recipient_list.newList email.recipients := by
      intro email sent
      by_cases accepted : isSender site (strip call.from_email)
      · simp only [sendMail, accepted, if_true, Except.ok.injEq] at sent
        rw [← sent]
        exact onePerAddress_deduplicate _
      · simp [sendMail, accepted] at sent
    rw [and_iff_left recipients]
    by_cases accepted : isSender site (strip call.from_email)
    · rw [sendMail_eq_iff accepted, Call.headers, Call.headers, stripReplyTo_process,
        unsubscribeFor_unsubscribeFor, forall_prop_of_true accepted]
      cases user : call.user with
      | some link => simp
      | none =>
          cases left : leftLink site before call.extra_headers with
          | none => simp
          | some link =>
              have post := @get?_stripReplyTo (written site before call.extra_headers)
                listUnsubscribePost (by decide)
              have isLink := @get?_stripReplyTo (written site before call.extra_headers)
                listUnsubscribe (by decide)
              simpa [unsubscribeFor, post, isLink] using @unsubscribe_eq_self_iff
                (stripReplyTo (written site before call.extra_headers)) link
    · simp [sendMail, accepted]
  exact forall_congr' fun before => forall_congr' fun call => imp_congr_right fun _ =>
    each before call

/-! ## Mails of the queue -/

/-- The call of `TextOfEmail.send`, with the headers of its request, or none if it has no request,
in a dictionary of their own. -/
def queued (number : ℕ) (specialHeaders : Headers) (call : Call) : List Action :=
  [.write number specialHeaders, .send { call with extra_headers := some number }]

namespace Sample

def testserver : Site where
  domain := "testserver.learningu.org".toList
  stripTags := id
  unicode := Users.Sample.ascii

/-- A call without headers of its own. -/
def toStudent (user : Option Text) : Call where
  subject := "Hello".toList
  message := "Welcome".toList
  from_email := "info@testserver.learningu.org".toList
  recipient_list := .single "student@example.com".toList
  fail_silently := false
  bcc := none
  return_path := "bounces@learningu.org".toList
  extra_headers := none
  user := user

/-- A mail without a user that is sent after one with a user has the link of that user. -/
theorem link_left : ¬ OwnArguments testserver
    [.send (toStudent (some "https://unsubscribe".toList)), .send (toStudent none)] := by
  intro own
  have same := (own [.send (toStudent (some "https://unsubscribe".toList))] (toStudent none)
    (List.prefix_refl _)).1
  rw [sendMail_eq_iff (by decide)] at same
  revert same
  decide

end Sample

end EspWebsite.Dbmail
