import EspWebsite.Library.Runs
import EspWebsite.Library.Tables
import EspWebsite.Library.Transactions

/-!
# Editing pages inline

`ajax_qsd` saves what an editor has written over the copy that a browser has loaded.  Pages load
and are saved in any order.
-/

namespace EspWebsite.Qsd

open Python Runs Tables Transactions Action

/-- A row of `QuasiStaticData`. -/
structure QuasiStaticData where
  id : ℕ
  url : String
  content : String
  createDate : ℤ
  author : ℕ
  deriving DecidableEq

instance : Keyed QuasiStaticData := ⟨QuasiStaticData.id⟩

/-- Who may edit what, what is left of a text when it is cleaned or its images are stripped, and the
text that a template has for a page without a record. -/
structure Site where
  loggedIn : ℕ → Bool
  userCanEditQsd : ℕ → String → Bool
  clean : String → String
  stripBase64Images : String → String
  defaultContent : String → String

abbrev Pages := Table QuasiStaticData

/-- The pages, and the copies of them that editors have loaded. -/
structure State where
  pages : Pages
  copies : ℕ → String → Option String

/-- What is posted to `ajax_qsd`. -/
structure Post where
  cmd : String
  url : String
  data : String

/-- The answer to a request. -/
inductive Response where
  | saved (content url : String)
  | nothing
  | refused (status : ℕ) (content : String)
  deriving DecidableEq

/-! ## The server -/

section Server

variable (site : Site) (pages : Pages)

def recordsOf (url : String) : List QuasiStaticData := pages.rows.filter fun qsd => qsd.url = url

/-- `latest('create_date')`. -/
def latest : List QuasiStaticData → Option QuasiStaticData
  | [] => none
  | qsd :: others =>
      match latest others with
      | none => some qsd
      | some other => if qsd.createDate < other.createDate then some other else some qsd

/-- `QSDManager.get_by_url`. -/
def getByUrl (url : String) : Option QuasiStaticData := latest (recordsOf pages url)

/-- The content that `get_by_url_else_init` shows. -/
def pageContent (url : String) : String :=
  match getByUrl pages url with
  | some qsd => qsd.content
  | none => site.defaultContent url

/-- `QuasiStaticData.objects.get_or_create`. -/
def getOrCreate (url : String) (author : ℕ) (now : ℤ) : Action Pages QuasiStaticData := fun pages =>
  match recordsOf pages url with
  | [] =>
      (.ok ⟨pages.next, url, "", now, author⟩,
        pages.create (fun id => ⟨id, url, "", now, author⟩) fun _ => rfl)
  | [qsd] => (.ok qsd, pages)
  | _ => (.error (.raised "MultipleObjectsReturned" "QuasiStaticData"), pages)

def expired : String :=
  "Oops! Your session expired!\nPlease open another window, log in, and try again.\nYour changes will not be lost if you keep this page open."

def notNewest : String :=
  "The edit you are submitting is not based on the newest version!\n(Is someone else editing? Did you get here by a back button?)\nCopy out your work if you need it. Then refresh the page to get the latest version."

/-- What is saved of a text. -/
def sanitize (url data : String) : String :=
  let urlParts := url.toList.splitOn '/'
  let data := if urlParts[3]? = some "Classes".toList then site.clean data else data
  site.stripBase64Images data

def ajaxQsd (user : ℕ) (post : Post) (now : ℤ) : Action Pages Response :=
  if !site.loggedIn user then return .refused 401 expired
  else if post.cmd = "update" then
    if !site.userCanEditQsd user post.url then
      return .refused 403 "Sorry, you do not have permission to edit this page."
    else do
      let qsd ← getOrCreate post.url user now
      let pages ← read
      -- models are equal if their keys are
      if (getByUrl pages qsd.url).map QuasiStaticData.id = some qsd.id then
        let data := sanitize site qsd.url post.data
        if qsd.content ≠ data then
          change fun pages =>
            pages.save { qsd with content := data, author := user, createDate := now }
        return .saved data qsd.url
      else return .refused 409 notNewest
  else return .nothing

end Server

/-! ## Browsers -/

/-- What `qsd_inline_finish` sends. -/
def message (url text : String) : Post where
  cmd := "update"
  url := url
  data := text

/-- An editor loads a page, or saves a text that was written over the loaded copy. -/
inductive Visit where
  | load (editor : ℕ) (url : String)
  | save (editor : ℕ) (url text : String) (now : ℤ)

def step (site : Site) (state : State) : Visit → State
  | .load editor url =>
      { state with
        copies := Function.update state.copies editor
          (Function.update (state.copies editor) url (some (pageContent site state.pages url))) }
  | .save editor url text now =>
      match state.copies editor url with
      | none => state
      | some _ =>
          { state with pages := (ajaxQsd site editor (message url text) now state.pages).2 }

/-! ## What is refused -/

/-- A save that changes a page is based on the content that the page had, and one that is not is
refused and leaves the page as it is. -/
def Guarded (site : Site) (state : State) : Visit → Prop
  | .load .. => True
  | .save editor url text now =>
      let answer := ajaxQsd site editor (message url text) now state.pages
      let before := pageContent site state.pages url
      let after := pageContent site answer.2 url
      ∀ copy, state.copies editor url = some copy →
        ((∃ content, answer.1 = .ok (.saved content url)) → after ≠ before → copy = before) ∧
          (copy ≠ before → (¬ ∃ content, answer.1 = .ok (.saved content url)) ∧ after = before)

/-- An editor who may save a page, of which there is one record at most, has loaded its content. -/
def Fresh (site : Site) (state : State) : Visit → Prop
  | .load .. => True
  | .save editor url _ _ =>
      ∀ copy, state.copies editor url = some copy → site.loggedIn editor = true →
        site.userCanEditQsd editor url = true → (recordsOf state.pages url).length ≤ 1 →
          copy = pageContent site state.pages url

section Steps

variable {site : Site} {state : State} {pages after : Pages} {url text : String} {editor : ℕ}
  {now : ℤ}
  {qsd : QuasiStaticData} {post : Post}

theorem getByUrl_of_getOrCreate (got : getOrCreate url editor now pages = (.ok qsd, after)) :
    qsd.url = url ∧ getByUrl after url = some qsd := by
  rw [getOrCreate] at got
  split at got
  next none =>
    cases got
    refine ⟨rfl, ?_⟩
    rw [recordsOf] at none
    rw [getByUrl, recordsOf, Table.rows_create, List.filter_append, none]
    simp [latest]
  next found single =>
    cases got
    have member : qsd ∈ recordsOf pages url := by
      rw [single]
      exact List.mem_singleton_self _
    rw [getByUrl, single]
    exact ⟨of_decide_eq_true (List.mem_filter.mp member).2, rfl⟩
  next => cases got

/-- A record is got or created if there is one at most. -/
theorem exists_getOrCreate (few : (recordsOf pages url).length ≤ 1) :
    ∃ qsd after, getOrCreate url editor now pages = (.ok qsd, after) := by
  rw [getOrCreate]
  split
  next => exact ⟨_, _, rfl⟩
  next => exact ⟨_, _, rfl⟩
  next notNone notSingle =>
    match found : recordsOf pages url with
    | [] => exact absurd found notNone
    | [qsd] => exact absurd found (notSingle qsd)
    | first :: second :: rest =>
        rw [found] at few
        simp at few

/-- The check that a save is based on the newest version always succeeds. -/
theorem ajaxQsd_saves (loggedIn : site.loggedIn editor = true)
    (mayEdit : site.userCanEditQsd editor url = true) (few : (recordsOf pages url).length ≤ 1) :
    ∃ content, (ajaxQsd site editor (message url text) now pages).1 = .ok (.saved content url) := by
  have exists_got : ∃ qsd after, getOrCreate url editor now pages = (.ok qsd, after) :=
    exists_getOrCreate few
  rcases exists_got with ⟨qsd, between, got⟩
  rcases getByUrl_of_getOrCreate got with ⟨sameUrl, newest⟩
  simp only [ajaxQsd, message, loggedIn, mayEdit, Bool.not_true, Bool.false_eq_true, if_false,
    if_true]
  rw [bind_of_ok got]
  simp only [read_bind, sameUrl, newest, Option.map_some, if_true]
  split
  next => exact ⟨_, rfl⟩
  next => exact ⟨_, rfl⟩

theorem ajaxQsd_refuses (refused : site.loggedIn editor = true →
    site.userCanEditQsd editor url = true →
      ¬ (recordsOf pages url).length ≤ 1) :
    (¬ ∃ content, (ajaxQsd site editor (message url text) now pages).1 = .ok (.saved content url)) ∧
      (ajaxQsd site editor (message url text) now pages).2 = pages := by
  cases loggedIn : site.loggedIn editor with
  | false =>
      simp only [ajaxQsd, loggedIn, Bool.not_false, if_true]
      simp
  | true =>
  cases mayEdit : site.userCanEditQsd editor url with
  | false =>
      simp only [ajaxQsd, message, loggedIn, mayEdit, Bool.not_true, Bool.not_false,
        Bool.false_eq_true, if_false, if_true]
      simp
  | true =>
  have several : getOrCreate url editor now pages =
      (.error (.raised "MultipleObjectsReturned" "QuasiStaticData"), pages) := by
    have many := refused loggedIn mayEdit
    rw [getOrCreate]
    match found : recordsOf pages url with
    | [] => simp [found] at many
    | [qsd] => simp [found] at many
    | first :: second :: rest => rfl
  simp only [ajaxQsd, message, loggedIn, mayEdit, Bool.not_true, Bool.false_eq_true, if_false,
    if_true]
  rw [bind_of_error several]
  simp

theorem guarded_iff (visit : Visit) : Guarded site state visit ↔ Fresh site state visit := by
  cases visit with
  | load editor url => exact Iff.rfl
  | save editor url text now =>
      rw [Guarded, Fresh]
      refine forall_congr' fun copy => forall_congr' fun loaded => ?_
      constructor
      · intro guarded loggedIn mayEdit few
        by_contra older
        exact (guarded.2 older).1 (ajaxQsd_saves loggedIn mayEdit few)
      · intro fresh
        by_cases current : copy = pageContent site state.pages url
        · exact ⟨fun _ _ => current, fun older => absurd current older⟩
        · have stale (loggedIn : site.loggedIn editor = true)
              (mayEdit : site.userCanEditQsd editor url = true) :
              ¬ (recordsOf state.pages url).length ≤ 1 :=
            fun few => current (fresh loggedIn mayEdit few)
          refine ⟨fun saved => absurd saved (ajaxQsd_refuses stale).1, fun _ =>
            ⟨(ajaxQsd_refuses stale).1, ?_⟩⟩
          rw [(ajaxQsd_refuses stale).2]

theorem loaded_of_copy {visits : List Visit} {copy : String}
    (has : (run (step site) ⟨pages, fun _ _ => none⟩ visits).copies editor url = some copy) :
    ∃ before, before ++ [.load editor url] <+: visits ∧
      copy = pageContent site (run (step site) ⟨pages, fun _ _ => none⟩ before).pages url := by
  induction visits using List.reverseRecOn with
  | nil => cases has
  | append_singleton visits visit ih =>
      have earlier (had : (run (step site) ⟨pages, fun _ _ => none⟩ visits).copies editor url =
          some copy) : ∃ before, before ++ [.load editor url] <+: visits ++ [visit] ∧
            copy = pageContent site (run (step site) ⟨pages, fun _ _ => none⟩ before).pages
              url := by
        rcases ih had with ⟨before, isPrefix, same⟩
        exact ⟨before, isPrefix.trans (List.prefix_append _ _), same⟩
      rw [run, List.foldl_append, List.foldl_cons, List.foldl_nil] at has
      change (step site (run (step site) _ visits) visit).copies editor url = some copy at has
      cases visit with
      | save other page text now =>
          rw [step] at has
          split at has
          next => exact earlier has
          next => exact earlier has
      | load other page =>
          rw [step] at has
          dsimp only at has
          by_cases same : editor = other
          · rw [← same, Function.update_self] at has
            by_cases samePage : url = page
            · rw [← samePage, Function.update_self] at has
              cases has
              rw [← same, ← samePage]
              exact ⟨visits, List.prefix_refl _, rfl⟩
            · rw [Function.update_of_ne samePage] at has
              exact earlier has
          · rw [Function.update_of_ne same] at has
            exact earlier has

/-- No older copy is ever saved over a page exactly if nobody who may save the page saves an
older copy: the check never refuses one. -/
theorem guarded_throughout_iff (site : Site) (state : State) (visits : List Visit) :
    AtEach (step site) (Guarded site) state visits ↔ AtEach (step site) (Fresh site) state visits :=
  forall_congr' fun _ => forall_congr' fun visit => forall_congr' fun _ => guarded_iff visit

end Steps

/-- A site where all may edit, and texts are saved as they are. -/
def openToAll : Site where
  loggedIn := fun _ => true
  userCanEditQsd := fun _ _ => true
  clean := id
  stripBase64Images := id
  defaultContent := fun _ => ""

def onePage : State where
  pages := ⟨[⟨1, "learn/index", "old", 0, 0⟩], 2, by decide, by decide⟩
  copies := fun _ _ => none

/-- Two editors load a page, and the second one overwrites what the first one has saved. -/
theorem not_guarded_two_editors : ¬ AtEach (step openToAll) (Guarded openToAll) onePage
    [.load 1 "learn/index", .load 2 "learn/index", .save 1 "learn/index" "first" 1,
      .save 2 "learn/index" "second" 2] := by
  intro guarded
  have last := guarded [.load 1 "learn/index", .load 2 "learn/index",
    .save 1 "learn/index" "first" 1] (.save 2 "learn/index" "second" 2) (List.prefix_refl _) "old"
    (by decide)
  exact (last.2 (by decide)).1 ⟨"second", by decide⟩

end EspWebsite.Qsd
