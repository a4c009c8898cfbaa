import SourceDoc.Chat.Runner
import SourceDoc.Proofs.List

/-!
# Replies that a runner foresees

Not every failure of a runner is one that it reports as such.  Over HTTP it reports what goes wrong exactly where its
address names a scheme and the reply is one that it foresees (`ask_reported_iff`): a fault of the connection, or a body
that is a text and holds an object or no JSON at all.  A body that is no text, one that holds other JSON, and one with a
number of too many digits fail with something else.
-/

namespace SourceDoc.Chat

/-! ## Failures -/

theorem ModelError.message_ne_nil (e : ModelError) : e.message ≠ [] := by
  have hliteral : ∀ {c : Char} {t : Text}, (String.ofList (c :: t)).toList ≠ [] :=
    of_literal (p := (· ≠ [])) (List.cons_ne_nil _ _)
  have hmore : ∀ {a b : Text}, a ≠ [] → a ++ b ≠ [] := fun h => List.append_ne_nil_of_left_ne_nil h _
  cases e with
  | noProgram => exact hmore (hmore hliteral)
  | programTimeout => exact hmore (hmore hliteral)
  | programExit => exact hmore (hmore (hmore hliteral))
  | status => exact hmore (hmore (hmore hliteral))
  | unreachable => exact hmore hliteral
  | timeout => exact hmore (hmore hliteral)
  | broken => exact hmore hliteral
  | notJson => exact hliteral
  | empty => exact hliteral

theorem Fault.description_ne_nil (f : Fault) : f.description ≠ [] := by
  cases f with
  | cutShort received missing? => exact List.append_ne_nil_of_right_ne_nil _ (List.cons_ne_nil _ _)
  | _ => exact List.append_ne_nil_of_right_ne_nil _ (List.cons_ne_nil _ _)

/-- A failure that is reported has a wording. -/
theorem Failure.shown_ne_nil (f : Failure) (h : f.isForeseen = true) : f.shown ≠ [] := by
  cases f with
  | model e => exact e.message_ne_nil
  | fault g =>
    by_cases hg : g.message = []
    · have hshown : (Failure.fault g).shown = g.description := if_pos hg
      rw [hshown]
      exact g.description_ne_nil
    · have hshown : (Failure.fault g).shown = g.message := if_neg hg
      rw [hshown]
      exact hg
  | _ => exact absurd h Bool.false_ne_true

/-- A failure, if there is one, is reported as one of the model. -/
def IsReported {α : Type} (result : Except Failure α) : Prop := ∀ f, result = .error f → f.isForeseen = true

@[simp] theorem isReported_ok {α : Type} (a : α) : IsReported (.ok a : Except Failure α) := by
  intro f h
  cases h

@[simp] theorem isReported_error {α : Type} (f : Failure) :
    IsReported (.error f : Except Failure α) ↔ f.isForeseen = true := by
  constructor
  · intro h
    exact h f rfl
  · rintro h f' he
    cases he
    exact h

/-! ## Replies -/

/-- A reply that a runner over HTTP foresees. -/
inductive Reply.IsForeseen : Reply → Prop where
  | fault (f : Fault) (h : f.isForeseen = true) : IsForeseen (.fault f)
  | notJson (octets : List UInt8) (t : Text) (e : Json.ParseError) (ht : Text.decode octets = .ok t)
      (he : Json.parse t = .error e) (hnumber : ∀ n, e.fault ≠ .number n) : IsForeseen (.body octets)
  | object (octets : List UInt8) (t : Text) (answer : Json.Members) (ht : Text.decode octets = .ok t)
      (hanswer : Json.parse t = .ok (.object answer)) : IsForeseen (.body octets)

theorem Reply.isForeseen_fault_iff (f : Fault) : IsForeseen (.fault f) ↔ f.isForeseen = true := by
  constructor
  · rintro ⟨⟩
    assumption
  · exact .fault f

/-- What a body that is a text has to hold. -/
theorem Reply.isForeseen_body_iff (octets : List UInt8) (t : Text) (ht : Text.decode octets = .ok t) :
    IsForeseen (.body octets) ↔
      match Json.parse t with
      | .error e => ∀ n, e.fault ≠ .number n
      | .ok v => ∃ answer, v = .object answer := by
  constructor
  · intro h
    cases h with
    | notJson _ t' e ht' he hnumber =>
      obtain rfl : t = t' := Except.ok.inj (ht.symm.trans ht')
      rw [he]
      exact hnumber
    | object _ t' answer ht' hanswer =>
      obtain rfl : t = t' := Except.ok.inj (ht.symm.trans ht')
      rw [hanswer]
      exact ⟨answer, rfl⟩
  · cases hp : Json.parse t with
    | error e => exact fun h => .notJson octets t e ht hp h
    | ok v =>
      rintro ⟨answer, rfl⟩
      exact .object octets t answer ht hp

theorem Reply.not_isForeseen_of_undecodable (octets : List UInt8) (e : Text.DecodeError)
    (h : Text.decode octets = .error e) : ¬ IsForeseen (.body octets) := by
  intro hf
  cases hf with
  | notJson _ t _ ht => exact absurd (h.symm.trans ht) (by simp)
  | object _ t _ ht => exact absurd (h.symm.trans ht) (by simp)

namespace Runner

variable (r : Runner)

/-! ## Reading -/

theorem isForeseen_httpFailure (f : Fault) : (r.httpFailure f).isForeseen = f.isForeseen := by
  cases f with
  | plain kind text => cases kind <;> rfl
  | unreachable reason => rfl
  | status code reason body => rfl
  | cutShort received missing? => rfl
  | programTimeout command limit? => rfl
  | programExit command code complaint => rfl

theorem readHttpBody_undecodable {octets : List UInt8} {e : Text.DecodeError} (h : Text.decode octets = .error e) :
    readHttpBody octets = .error (.undecodable e) := by
  unfold readHttpBody
  rw [h]
  rfl

theorem mapError_decoded {octets : List UInt8} {t : Text} (ht : Text.decode octets = .ok t) :
    (Text.decode octets).mapError Failure.undecodable = .ok t := by
  rw [ht]
  rfl

theorem readHttpBody_badJson {octets : List UInt8} {t : Text} {e : Json.ParseError} (ht : Text.decode octets = .ok t)
    (he : Json.parse t = .error e) :
    readHttpBody octets = .error (match e.fault with
      | .number n => .badNumber n
      | _ => .model .notJson) := by
  unfold readHttpBody
  rw [mapError_decoded ht]
  simp only [bind, Except.bind, he]
  cases e.fault <;> rfl

theorem readHttpBody_json {octets : List UInt8} {t : Text} {v : Json} (ht : Text.decode octets = .ok t)
    (hv : Json.parse t = .ok v) :
    readHttpBody octets = match v with
      | .object answer =>
        if contentOf answer = [] then .error (.model .empty) else .ok (Text.strip (contentOf answer))
      | v => .error (.notObject v.kindWord) := by
  unfold readHttpBody
  rw [mapError_decoded ht]
  simp only [bind, Except.bind, hv]
  cases v <;> rfl

theorem readHttpBody_reported_iff (octets : List UInt8) :
    IsReported (readHttpBody octets) ↔ (Reply.body octets).IsForeseen := by
  cases ht : Text.decode octets with
  | error e =>
    rw [readHttpBody_undecodable ht, isReported_error]
    simp [Failure.isForeseen, Reply.not_isForeseen_of_undecodable octets e ht]
  | ok t =>
    rw [Reply.isForeseen_body_iff octets t ht]
    cases hp : Json.parse t with
    | error e =>
      rw [readHttpBody_badJson ht hp, isReported_error]
      cases hfault : e.fault <;> simp [Failure.isForeseen, hfault]
    | ok v =>
      rw [readHttpBody_json ht hp]
      cases v with
      | object answer =>
        by_cases hempty : contentOf answer = []
        · simp [hempty, Failure.isForeseen]
        · simp [hempty]
      | _ => simp [Failure.isForeseen]

theorem read_reported_iff (address : Text) (haddress : r.address? = some address) (reply : Reply) :
    IsReported (r.read reply) ↔ reply.IsForeseen := by
  unfold Runner.read
  rw [haddress]
  cases reply with
  | body octets => exact readHttpBody_reported_iff octets
  | fault f =>
    rw [Reply.isForeseen_fault_iff, ← r.isForeseen_httpFailure f]
    exact isReported_error _

/-! ## Asking -/

/-- The address that requests go to names its scheme. -/
def NamesScheme (address : Text) : Prop := hasScheme (cleanUrl (address ++ "/chat/completions".toList)) = true

theorem request_of_namesScheme (address : Text) (haddress : r.address? = some address) (h : NamesScheme address)
    (p : Prompt) (wantsJson : Bool) : ∃ request, r.request p wantsJson = .ok request := by
  unfold Runner.request Runner.httpRequest
  rw [haddress]
  exact ⟨_, if_pos h⟩

theorem request_of_not_namesScheme (address : Text) (haddress : r.address? = some address)
    (h : ¬ NamesScheme address) (p : Prompt) (wantsJson : Bool) :
    r.request p wantsJson = .error (.unknownScheme (cleanUrl (address ++ "/chat/completions".toList))) := by
  unfold Runner.request Runner.httpRequest
  rw [haddress]
  exact if_neg h

/-- **Over HTTP a failure is reported exactly where the address names a scheme and the reply is foreseen.** -/
theorem ask_reported_iff (address : Text) (haddress : r.address? = some address) (p : Prompt) (wantsJson : Bool)
    (l : Line) : IsReported (r.ask p wantsJson l).1 ↔ NamesScheme address ∧ l.next.1.IsForeseen := by
  unfold Runner.ask
  by_cases hscheme : NamesScheme address
  · obtain ⟨request, hrequest⟩ := r.request_of_namesScheme address haddress hscheme p wantsJson
    rw [hrequest]
    simp only [hscheme, true_and]
    exact r.read_reported_iff address haddress l.next.1
  · rw [r.request_of_not_namesScheme address haddress hscheme p wantsJson]
    simp only [hscheme, false_and, iff_false, isReported_error]
    exact Bool.false_ne_true

end Runner

/-! ## Lines -/

/-- All replies that a line has left are foreseen. -/
def Line.IsForeseen (l : Line) : Prop := ∀ reply ∈ l.replies, reply.IsForeseen

/-- A line without replies is out of reach, which is foreseen too. -/
theorem Line.IsForeseen.next {l : Line} (h : l.IsForeseen) :
    l.next.1.IsForeseen ∧ ∀ reply ∈ l.next.2, reply.IsForeseen := by
  unfold Line.IsForeseen at h
  unfold Line.next
  cases hl : l.replies with
  | nil => exact ⟨.fault _ rfl, by simp⟩
  | cons reply rest =>
    rw [hl] at h
    exact List.forall_mem_cons.mp h

/-- Asking uses replies up and leaves the others as they are. -/
theorem Line.IsForeseen.ask {l : Line} (h : l.IsForeseen) (r : Runner) (p : Prompt) (wantsJson : Bool) :
    (r.ask p wantsJson l).2.IsForeseen := by
  unfold Runner.ask
  cases r.request p wantsJson with
  | error e => exact h
  | ok request => exact h.next.2

end SourceDoc.Chat
