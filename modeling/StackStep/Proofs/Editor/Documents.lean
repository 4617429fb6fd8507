import StackStep.Editor.Service
import StackStep.Proofs.Dict
import StackStep.Proofs.History

/-!
The documents of a session.

A session is any calls, in any order, with any parameters, on a service that starts
without having been started. Only what has been answered without an error counts:
a refused call changes nothing. Of the calls that count, the text of a document is
decided by the latest that concerns it, and shutting down takes all texts away. A
service that is not started has therefore no documents, since all it admits then is
to be started.
-/

namespace StackStep.Editor

structure Call where
  method : Bytes
  params : Option Json

namespace Request

/-- What a request makes of the text of a document, if it concerns the document. A
change concerns it only if its last part is the whole text. -/
def leaves? (uri : Bytes) : Request → Option (Option Bytes)
  | .didOpen u text => if uri = u then some (some text) else none
  | .didChange u changes =>
    if uri = u then
      match changes.getLast? with
      | some (.whole text) => some (some text)
      | _ => none
    else none
  | .didClose u => if uri = u then some none else none
  | _ => none

/-- The same, with what shutting down makes of every document. -/
def effect? (uri : Bytes) (r : Request) : Option (Option Bytes) :=
  if r = .shutdown then some none else r.leaves? uri

theorem effect?_eq_none_iff {uri : Bytes} {r : Request} :
    r.effect? uri = none ↔ r ≠ .shutdown ∧ r.leaves? uri = none := by
  rw [effect?]
  split
  · next h => simp [h]
  · next h => simp [h]

theorem effect?_eq_text_iff {uri text : Bytes} {r : Request} :
    r.effect? uri = some (some text) ↔ r.leaves? uri = some (some text) := by
  rw [effect?]
  split
  · next h =>
      subst h
      simp [leaves?]
  · rfl

/-- The method that may be called on a service that is not started. -/
theorem eq_start_of_read {params : Option Json} {r : Request}
    (h : read (Bytes.ofString "initialize") params = .ok r) : r = .start := by
  rw [read, if_pos rfl] at h
  unfold withParams at h
  split at h
  · split at h
    · cases h
      rfl
    · cases h
  · cases h

end Request

namespace Service

variable {s : Service}

def serve (s : Service) (call : Call) : Service := (s.handle call.method call.params).2

def answered? (call : Service × Call) : Option Request :=
  match (call.1.handle call.2.method call.2.params).1 with
  | .ok _ => (Request.read call.2.method call.2.params).toOption
  | .error _ => none

def serveAll (s : Service) (calls : List Call) : Service := calls.foldl serve s

/-- The requests among some calls that have been answered without an error. -/
def history (s : Service) (calls : List Call) : List Request :=
  (trail serve s calls).filterMap answered?

/-! ### One call -/

/-- A call is refused and nothing happens, or it makes a request that is answered. On a
service that is not started this can only be the request to start it. -/
theorem serve_cases (s : Service) (call : Call) :
    (answered? (s, call) = none ∧ s.serve call = s) ∨
    ∃ r, answered? (s, call) = some r ∧ s.serve call = (s.answer r).2 ∧
      (s.started = false → r = .start) := by
  simp only [answered?, serve, handle]
  by_cases hadmits : s.admits call.method
  · rw [if_pos hadmits]
    cases hread : Request.read call.method call.params with
    | error refusal => exact .inl ⟨rfl, rfl⟩
    | ok r =>
        refine .inr ⟨r, rfl, rfl, ?_⟩
        intro hstarted
        have hmethod : call.method = Bytes.ofString "initialize" := by
          simpa [admits, hstarted] using hadmits
        rw [hmethod] at hread
        exact Request.eq_start_of_read hread
  · rw [if_neg hadmits]
    exact .inl ⟨rfl, rfl⟩

theorem serve_of_error {call : Call} {refusal : Refusal}
    (h : (s.handle call.method call.params).1 = .error refusal) : s.serve call = s := by
  rcases s.serve_cases call with ⟨-, hserve⟩ | ⟨r, hanswered, -, -⟩
  · exact hserve
  · rw [answered?, h] at hanswered
    cases hanswered

theorem find?_changed (documents : Dict Bytes) (u uri : Bytes) (changes : List Change) :
    (changed documents u changes).find? uri =
      ((Request.didChange u changes).leaves? uri).getD (documents.find? uri) := by
  simp only [changed, Request.leaves?]
  cases changes.getLast? with
  | none => simp
  | some change =>
      cases change with
      | part => simp
      | whole text =>
          rw [Dict.find?_insert]
          split
          · rfl
          · rfl

/-- What an answered request makes of the documents. -/
theorem find?_answer (s : Service) (r : Request) (uri : Bytes) :
    (s.answer r).2.documents.find? uri =
      (r.effect? uri).getD (s.documents.find? uri) := by
  cases r with
  | start | started | setTrace | completion | hover | shutdown => rfl
  | didOpen u text =>
      rw [Request.effect?, if_neg (by simp), Request.leaves?]
      rw [answer, Dict.find?_insert]
      split
      · rfl
      · rfl
  | didChange u changes =>
      rw [Request.effect?, if_neg (by simp)]
      exact find?_changed s.documents u uri changes
  | didClose u =>
      rw [Request.effect?, if_neg (by simp), Request.leaves?]
      rw [answer, Dict.find?_erase]
      split
      · rfl
      · rfl

theorem find?_serve (s : Service) (call : Call) (uri : Bytes) :
    (s.serve call).documents.find? uri =
      ((answered? (s, call)).bind (Request.effect? uri)).getD (s.documents.find? uri) := by
  rcases s.serve_cases call with ⟨hrefused, hserve⟩ | ⟨r, hanswered, hserve, -⟩
  · rw [hrefused, hserve]
    rfl
  · rw [hanswered, hserve]
    exact find?_answer s r uri

/-- A call keeps it so that a service which is not started has no documents. -/
theorem documents_serve {call : Call} (h : s.started = false → s.documents = {}) :
    (s.serve call).started = false → (s.serve call).documents = {} := by
  rcases s.serve_cases call with ⟨-, hserve⟩ | ⟨r, -, hserve, hstart⟩
  · rw [hserve]
    exact h
  · rw [hserve]
    intro hstopped
    cases r with
    | start => cases hstopped
    | shutdown => rfl
    | started | setTrace | didOpen | didChange | didClose | completion | hover =>
        -- These leave the mark as it is, and are refused where it is not set.
        cases hstart hstopped

/-! ### A session -/

theorem find?_serveAll (s : Service) (calls : List Call) (uri : Bytes) :
    (s.serveAll calls).documents.find? uri =
      (lastSome? (Request.effect? uri) (s.history calls)).getD (s.documents.find? uri) := by
  rw [history, lastSome?_filterMap]
  exact view_foldl (fun s => s.documents.find? uri)
    (fun call => (answered? call).bind (Request.effect? uri))
    (fun s call => find?_serve s call uri) s calls

theorem documents_serveAll (calls : List Call) (h : s.started = false → s.documents = {}) :
    (s.serveAll calls).started = false → (s.serveAll calls).documents = {} := by
  induction calls generalizing s with
  | nil => exact h
  | cons call calls ih => exact ih (documents_serve h)

/-- The text of a document after any session is the one given by the latest request that
concerns the document, of those answered without an error since the last time the service
was shut down. So a refused call changes nothing, and an answered one nothing in the
documents it does not concern, unless it shuts the service down; and a service that is
not started has no documents. -/
theorem documents_of_session (registry : Registry) (name : Bytes) (calls : List Call) :
    let s := (create registry name).serveAll calls
    (∀ uri text, s.documents.find? uri = some text ↔
      ∃ earlier r later, (create registry name).history calls = earlier ++ r :: later ∧
        r.leaves? uri = some (some text) ∧
        ∀ r' ∈ later, r' ≠ .shutdown ∧ r'.leaves? uri = none) ∧
    (∀ call refusal, (s.handle call.method call.params).1 = .error refusal →
      s.serve call = s) ∧
    (∀ call r uri, answered? (s, call) = some r → r ≠ .shutdown → r.leaves? uri = none →
      (s.serve call).documents.find? uri = s.documents.find? uri) ∧
    (s.started = false → s.documents = {}) := by
  intro s
  refine ⟨?_, fun call refusal => serve_of_error, ?_, ?_⟩
  · intro uri text
    have hfind : s.documents.find? uri =
        (lastSome? (Request.effect? uri) ((create registry name).history calls)).getD none :=
      find?_serveAll (create registry name) calls uri
    have htext {o : Option (Option Bytes)} :
        o.getD none = some text ↔ o = some (some text) := by
      cases o <;> simp
    rw [hfind, htext, lastSome?_eq_some_iff]
    simp only [Request.effect?_eq_text_iff, Request.effect?_eq_none_iff]
  · intro call r uri hanswered hstays hother
    rw [find?_serve, hanswered]
    have heffect := Request.effect?_eq_none_iff.mpr ⟨hstays, hother⟩
    rw [Option.bind_some, heffect, Option.getD_none]
  · exact documents_serveAll calls fun _ => rfl

/-- The first text comes too early, the second goes with the service, the third is given
to a document that is not open, and a part is no text. -/
theorem documents_of_session_restarted :
    let opened (text : Bytes) : Json :=
      .object [("textDocument", .object [("uri", .string "u"), ("text", .string text)])]
    let edited (events : List Json) : Json :=
      .object [("textDocument", .object [("uri", .string "u")]),
        ("contentChanges", .array events)]
    let whole (text : Bytes) : Json := .object [("text", .string text)]
    let part : Json := .object [("range", .object []), ("text", .string "e")]
    let calls : List Call :=
      [⟨"textDocument/didOpen", some (opened "a")⟩, ⟨"initialize", some .null⟩,
        ⟨"textDocument/didOpen", some (opened "b")⟩, ⟨"shutdown", none⟩,
        ⟨"initialize", some (.object [])⟩, ⟨"textDocument/didChange", some (edited [whole "c"])⟩,
        ⟨"textDocument/didChange", some (edited [whole "d", part])⟩]
    let s := (create .builtin []).serveAll calls
    s.documents.find? "u" = some "c" ∧
      (∃ earlier r later, (create .builtin []).history calls = earlier ++ r :: later ∧
        r.leaves? "u" = some (some ("c" : Bytes)) ∧
        ∀ r' ∈ later, r' ≠ .shutdown ∧ r'.leaves? "u" = none) ∧
      s.serve ⟨"initialize", none⟩ = s := by
  intro opened edited whole part calls s
  obtain ⟨htext, hrefused, -, -⟩ := documents_of_session .builtin [] calls
  have hfind : s.documents.find? "u" = some "c" := by decide +kernel
  have hstarted : s.started = true := by decide +kernel
  have hread : Request.read "initialize" none = .error .invalidParams := by
    rw [Request.read, if_pos rfl]
    rfl
  have hhandle : (s.handle "initialize" none).1 = .error .invalidParams := by
    rw [handle, admits, hstarted, Bool.true_or, if_pos rfl, hread]
  exact ⟨hfind, (htext "u" "c").mp hfind, hrefused ⟨"initialize", none⟩ _ hhandle⟩

end Service

end StackStep.Editor
