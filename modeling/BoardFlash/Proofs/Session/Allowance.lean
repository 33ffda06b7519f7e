import BoardFlash.Proofs.Session.Stage

/-!
# What may be under way to a board and back

A session stops and waits: before it has sent the frame of an exchange
nothing is under way to its board or back, and afterwards only this frame
or one answer to it. `Stage.Allows` says so of two lists of frames, the
`requests` that the board has not answered and the `answers` that the
session has not taken.

A session keeps to this if its board answers each frame at most once.
`Allows.passage` is the step of the session and `Allows.answer` that of
the board; what happens to the frames in between must not change the
lists but for their order (`Allows.of_perm`).
-/

namespace BoardFlash

namespace Session

/-- The frames that can be under way to a board and back while its session is
at this stage. -/
def Stage.Allows (stage : Stage) (requests answers : List Frame) : Prop :=
  match stage with
  | .idle | .armed _ => requests = [] ∧ answers = []
  | .awaiting x => requests = [x.frame] ∧ answers = [] ∨ requests = [] ∧ answers.length ≤ 1
  | .closing => requests.length + answers.length ≤ 1

section

variable {stage : Stage} {requests answers : List Frame}

theorem Stage.Allows.length_le (h : stage.Allows requests answers) :
    requests.length + answers.length ≤ 1 := by
  cases stage with
  | idle | armed =>
      obtain ⟨rfl, rfl⟩ := h
      decide
  | awaiting x =>
      rcases h with ⟨rfl, rfl⟩ | ⟨rfl, h⟩
      · exact Nat.le_refl 1
      · rwa [List.length_nil, Nat.zero_add]
  | closing => exact h

theorem Stage.Allows.of_perm {requests' answers' : List Frame}
    (h : stage.Allows requests answers) (hrequests : requests'.Perm requests)
    (hanswers : answers'.Perm answers) : stage.Allows requests' answers' := by
  cases stage with
  | idle | armed =>
      obtain ⟨rfl, rfl⟩ := h
      exact ⟨List.perm_nil.mp hrequests, List.perm_nil.mp hanswers⟩
  | awaiting x =>
      rcases h with ⟨rfl, rfl⟩ | ⟨rfl, h⟩
      · exact .inl ⟨List.perm_singleton.mp hrequests, List.perm_nil.mp hanswers⟩
      · exact .inr ⟨List.perm_nil.mp hrequests, hanswers.length_eq ▸ h⟩
  | closing =>
      rw [Stage.Allows, hrequests.length_eq, hanswers.length_eq]
      exact h

/-- The board answers what it was sent, or what is left of an earlier
exchange. -/
theorem Stage.Allows.answer {heard frame : Frame} {requests' answers' : List Frame}
    (h : stage.Allows requests answers) (hrequests : requests.Perm (heard :: requests'))
    (hanswers : answers'.Perm (frame :: answers)) : stage.Allows requests' answers' := by
  have hlen := h.length_le
  have hlen' := hrequests.length_eq
  rw [List.length_cons] at hlen'
  have hrequests' : requests' = [] := List.length_eq_zero_iff.mp (by omega)
  have hnil : answers = [] := List.length_eq_zero_iff.mp (by omega)
  subst hrequests' hnil
  obtain rfl := List.perm_singleton.mp hanswers
  cases stage with
  | idle | armed =>
      rw [h.1] at hlen'
      cases hlen'
  | awaiting x => exact .inr ⟨rfl, Nat.le_refl 1⟩
  | closing => exact Nat.le_refl 1

/-- When an answer has come nothing else is under way. -/
theorem Stage.Allows.alone {outbound inbound below above : List Frame} {f : Frame}
    (h : stage.Allows (outbound ++ below) (above ++ f :: inbound)) :
    (outbound = [] ∧ below = []) ∧ above = [] ∧ inbound = [] := by
  have hlen := h.length_le
  rw [List.length_append, List.length_append, List.length_cons] at hlen
  refine ⟨⟨?_, ?_⟩, ?_, ?_⟩ <;> exact List.length_eq_zero_iff.mp (by omega)

end

section

variable {s s' : Session} {m m' : Mailbox} {below above : List Frame}

/-- Besides what is in the mailbox, the frames `below` are under way to the
board and `above` from it. A step of the session keeps to what its stage
allows. -/
theorem Stage.Allows.passage (h : s.stage.Allows (m.outbound.items ++ below)
    (above ++ m.inbound.items)) (p : Passage s m s' m') :
    s'.stage.Allows (m'.outbound.items ++ below) (above ++ m'.inbound.items) := by
  cases p with
  | quiet stage cursor inbound outbound =>
      rw [inbound, outbound]
      rcases stage with stage | stage
      · rw [stage]
        exact h
      · rw [stage]
        exact h.length_le
  | discard before after frame cursor inbound outbound =>
      rw [before, inbound] at h
      exact absurd (List.append_eq_nil_iff.mp h.2).2 (List.cons_ne_nil _ _)
  | arm x before after cursor empty inbound outbound =>
      rw [before, empty] at h
      rw [after, inbound, outbound]
      exact h
  | send x before after cursor inbound outbound =>
      rw [before] at h
      obtain ⟨hrequests, hanswers⟩ := h
      obtain ⟨hnil, rfl⟩ := List.append_eq_nil_iff.mp hrequests
      rw [inbound, outbound, hanswers, hnil]
      rcases after with after | after
      · rw [after]
        exact .inl ⟨rfl, rfl⟩
      · rw [after]
        exact Nat.le_refl 1
  | ignore x before after frame type cursor inbound outbound
  | accept x before after frame type cursor inbound outbound
  | refuse x before after frame type cursor inbound outbound
  | conclude x before after frame type cursor inbound outbound =>
      rw [inbound] at h
      obtain ⟨hbelow, habove⟩ := h.alone
      rw [after, outbound, hbelow.1, hbelow.2, habove.1, habove.2]
      first | exact ⟨rfl, rfl⟩ | exact .inr ⟨rfl, Nat.zero_le 1⟩ | exact Nat.zero_le 1

/-- How a step of a session changes what is under way: not at all, or by the
frame of an exchange when nothing else is, or by the answer that it has been
waiting for. -/
theorem Stage.Allows.changes (h : s.stage.Allows (m.outbound.items ++ below)
    (above ++ m.inbound.items)) (p : Passage s m s' m') :
    (m'.outbound.items = m.outbound.items ∧ m'.inbound.items = m.inbound.items)
    ∨ (∃ x, s.stage = .armed x ∧ m'.outbound.items ++ below = [x.frame]
      ∧ above ++ m'.inbound.items = [])
    ∨ (∃ x f, s.stage = .awaiting x ∧ m.outbound.items ++ below = []
      ∧ above ++ m.inbound.items = [f] ∧ m'.outbound.items ++ below = []
      ∧ above ++ m'.inbound.items = []) := by
  cases p with
  | quiet stage cursor inbound outbound => exact .inl ⟨outbound, inbound⟩
  | discard before after frame cursor inbound outbound =>
      rw [before, inbound] at h
      exact absurd (List.append_eq_nil_iff.mp h.2).2 (List.cons_ne_nil _ _)
  | arm x before after cursor empty inbound outbound =>
      exact .inl ⟨outbound, inbound.trans empty.symm⟩
  | send x before after cursor inbound outbound =>
      rw [before] at h
      obtain ⟨hrequests, hanswers⟩ := h
      obtain ⟨hnil, rfl⟩ := List.append_eq_nil_iff.mp hrequests
      refine .inr (.inl ⟨x, before, ?_, ?_⟩)
      · rw [outbound, hnil]
        rfl
      · rw [inbound, hanswers]
  | ignore x before after frame type cursor inbound outbound
  | accept x before after frame type cursor inbound outbound
  | refuse x before after frame type cursor inbound outbound
  | conclude x before after frame type cursor inbound outbound =>
      rw [inbound] at h
      obtain ⟨hbelow, habove⟩ := h.alone
      refine .inr (.inr ⟨x, frame, before, ?_, ?_, ?_, ?_⟩)
      · rw [hbelow.1, hbelow.2]
        rfl
      · rw [inbound, habove.1, habove.2]
        rfl
      · rw [outbound, hbelow.1, hbelow.2]
        rfl
      · rw [habove.1, habove.2]
        rfl

end

end Session

end BoardFlash
