import BoardFlash.Proofs.Cursor
import BoardFlash.Proofs.Session.Soundness
import BoardFlash.Proofs.Session.Stage

/-!
# Stop and wait

A `Transfer` is a session together with its board. The board takes the
frames that are queued for it one by one, keeps the payload of a chunk
that it accepts, and answers each frame at most once, sooner or later or
never. What else it says, when the session takes its steps and when it
is cancelled is left open: a run is any list of events.

No frame carries a number, so all rests on the order in which a session
throws old frames away, sends and waits. `Coherent` says for each stage
where the one frame of the exchange can be and what the board has kept:
the image up to the cursor, and in addition the chunk at the cursor if
the frame has been accepted. It is kept by every event
(`apply_valid`), and `flash_follows_cursor` reads the result off it.
-/

namespace BoardFlash

/-! ## A session and its board -/

/-- What a board may still answer to a frame that it has taken. -/
inductive Debt where
  /-- The chunk in the frame was accepted. -/
  | accepted
  /-- The chunk in the frame was refused. -/
  | refused
  /-- There was no chunk in the frame. -/
  | plain
  deriving DecidableEq, Repr

/-- A fatal error can be the answer to any frame. -/
def Debt.permits : Debt → FrameType → Bool
  | _, .fatalError => true
  | .accepted, .ack => true
  | .refused, .nack => true
  | .plain, .ack => true
  | .plain, .nack => true
  | _, _ => false

structure Transfer where
  session : Session
  mailbox : Mailbox
  /-- All that the board has accepted. -/
  flash : List UInt8 := []
  /-- One entry for each frame that the board has taken and not answered. -/
  owed : List Debt := []

namespace Transfer

/-- What can happen next in a transfer. -/
inductive Event where
  | session (now : Instant)
  /-- The board takes the oldest frame that is queued for it; a chunk in it
  is accepted or not. -/
  | take (accept : Bool)
  /-- The board answers the frame of the `i`-th debt. -/
  | answer (i : Nat) (frame : Frame)
  /-- The board says something that is no answer. -/
  | chatter (frame : Frame)
  | cancel
  /-- The board lets go of the queue of its answers. -/
  | stopAnswering
  deriving DecidableEq

/-- The board takes a frame out of its queue, `outbound` of which is left. -/
def hear (t : Transfer) (accept : Bool) (frame : Frame) (outbound : Queue Frame) : Transfer :=
  let t := { t with mailbox := { t.mailbox with outbound } }
  if frame.type = .programData then
    if accept then { t with flash := t.flash ++ frame.payload, owed := t.owed ++ [.accepted] }
    else { t with owed := t.owed ++ [.refused] }
  else { t with owed := t.owed ++ [.plain] }

/-- What cannot happen changes nothing. A frame that finds no room in the
inbound queue is lost. -/
def apply (t : Transfer) : Event → Transfer
  | .session now =>
    let r := t.session.step now t.mailbox
    { t with session := r.session, mailbox := r.mailbox }
  | .take accept =>
    match t.mailbox.outbound.tryRecv with
    | .ok (frame, outbound) => t.hear accept frame outbound
    | .error _ => t
  | .answer i frame =>
    match t.owed[i]? with
    | some debt =>
      if debt.permits frame.type then
        { t with mailbox := t.mailbox.apply (.deliver frame), owed := t.owed.eraseIdx i }
      else t
    | none => t
  | .chatter frame =>
    if frame.type.isAnswer then t
    else { t with mailbox := t.mailbox.apply (.deliver frame) }
  | .cancel => { t with mailbox := t.mailbox.apply .cancel }
  | .stopAnswering => { t with mailbox := t.mailbox.apply .stopDelivering }

def run (t : Transfer) (events : List Event) : Transfer := events.foldl apply t

/-- A transfer that has not begun. Nothing is queued for the board yet; in
the other direction there may be anything. -/
def start (board : UInt8) (image : Firmware) (settings : Settings) (inbound : Queue Frame)
    (capacity : Nat) (cancelled : Bool) : Transfer where
  session := Session.new board image settings
  mailbox := { inbound, outbound := { capacity }, cancelled }

/-! ## Where the frame of an exchange is -/

open Session (Exchange Stage Passage Sound Carries)

/-- Where the cursor is once the frame of the exchange is acknowledged. -/
def cursorAfter (x : Exchange) (c : Cursor) : Cursor :=
  if x.purpose = .request then c else c.advance

/-- What the board has kept if this is its answer. -/
def Agrees (x : Exchange) (c : Cursor) (flash : List UInt8) : FrameType → Prop
  | .ack => flash = (cursorAfter x c).passed
  | .nack => flash = c.passed
  | _ => flash = c.passed ∨ flash = (cursorAfter x c).passed

/-- The answers among the frames. -/
def answers (frames : List Frame) : List Frame := frames.filter (·.type.isAnswer)

/-- The frame of an exchange is in one place at most: in the queue to the
board, in the hands of the board, or in its answer. -/
inductive InFlight (x : Exchange) (c : Cursor) (inbound outbound : List Frame)
    (owed : List Debt) (flash : List UInt8) : Prop where
  | queued (outbound : outbound = [x.frame]) (owed : owed = []) (inbound : answers inbound = [])
      (flash : flash = c.passed)
  | taken (debt : Debt) (outbound : outbound = []) (owed : owed = [debt])
      (inbound : answers inbound = [])
      (flash : ∀ type, debt.permits type = true → Agrees x c flash type)
  | answered (answer : Frame) (outbound : outbound = []) (owed : owed = [])
      (inbound : answers inbound = [answer]) (flash : Agrees x c flash answer.type)
  | gone (outbound : outbound = []) (owed : owed = []) (inbound : answers inbound = [])
      (flash : Agrees x c flash .fatalError)

/-- How the queues, the debts and the flash fit the stage of the session. -/
def Coherent (c : Cursor) (inbound outbound : List Frame) (owed : List Debt)
    (flash : List UInt8) : Stage → Prop
  | .idle => outbound = [] ∧ owed = [] ∧ flash = c.passed
  | .armed _ => answers inbound = [] ∧ outbound = [] ∧ owed = [] ∧ flash = c.passed
  | .awaiting x => InFlight x c inbound outbound owed flash
  | .closing =>
    (outbound = [] ∧ (flash = c.passed ∨ flash = c.advance.passed))
      ∨ ∃ f, outbound = [f] ∧ flash = c.passed
        ∧ (f.type = .programData → c.current? = some f.payload)

/-! ## The queues in between -/

theorem answers_append (a b : List Frame) : answers (a ++ b) = answers a ++ answers b :=
  List.filter_append ..

theorem answers_cons_of_not {f : Frame} {rest : List Frame} (h : f.type.isAnswer = false) :
    answers (f :: rest) = answers rest :=
  List.filter_cons_of_neg (by simp [h])

theorem answers_cons_of {f : Frame} {rest : List Frame} (h : f.type.isAnswer = true) :
    answers (f :: rest) = f :: answers rest :=
  List.filter_cons_of_pos h

theorem isAnswer_of_permits {debt : Debt} {type : FrameType} (h : debt.permits type = true) :
    type.isAnswer = true := by
  unfold Debt.permits at h
  split at h <;> first | rfl | cases h

section

variable {board : UInt8} {image : Firmware} {c : Cursor} {x : Exchange}
  {inbound outbound : List Frame} {owed : List Debt} {flash : List UInt8}

/-- In an exchange the board is at most one chunk ahead of the cursor. -/
theorem Agrees.weaken {type : FrameType} (h : Agrees x c flash type) :
    flash = c.passed ∨ flash = c.advance.passed := by
  have hafter : cursorAfter x c = c ∨ cursorAfter x c = c.advance := by
    unfold cursorAfter
    split
    · exact .inl rfl
    · exact .inr rfl
  have hor : flash = c.passed ∨ flash = (cursorAfter x c).passed := by
    unfold Agrees at h
    split at h
    · exact .inr h
    · exact .inl h
    · exact h
  rcases hor with hflash | hflash
  · exact .inl hflash
  · rcases hafter with heq | heq
    · exact .inl (heq ▸ hflash)
    · exact .inr (heq ▸ hflash)

/-- A session can come to its end in the middle of an exchange. -/
theorem InFlight.close (h : InFlight x c inbound outbound owed flash)
    (hx : x.Fits board image c) (inbound' : List Frame) :
    Coherent c inbound' outbound owed flash .closing := by
  cases h with
  | queued hout howed hin hflash => exact .inr ⟨x.frame, hout, hflash, hx.current?_eq⟩
  | taken debt hout howed hin hflash =>
      exact .inl ⟨hout, (hflash .fatalError (by cases debt <;> rfl)).weaken⟩
  | answered answer hout howed hin hflash => exact .inl ⟨hout, hflash.weaken⟩
  | gone hout howed hin hflash => exact .inl ⟨hout, hflash.weaken⟩

/-- Frames that are no answers come and go in every stage. -/
theorem Coherent.of_answers {stage : Stage} (h : Coherent c inbound outbound owed flash stage)
    {inbound' : List Frame} (hin : answers inbound' = answers inbound) :
    Coherent c inbound' outbound owed flash stage := by
  cases stage with
  | idle => exact h
  | armed y => exact ⟨hin.trans h.1, h.2⟩
  | closing => exact h
  | awaiting y =>
      cases h with
      | queued hout howed hi hflash => exact .queued hout howed (hin.trans hi) hflash
      | taken debt hout howed hi hflash => exact .taken debt hout howed (hin.trans hi) hflash
      | answered answer hout howed hi hflash =>
          exact .answered answer hout howed (hin.trans hi) hflash
      | gone hout howed hi hflash => exact .gone hout howed (hin.trans hi) hflash

/-- When an answer is taken from the queue, it was the only one, and the
frame of the exchange is nowhere else. -/
theorem InFlight.taken_answer {f : Frame} {rest : List Frame}
    (h : InFlight x c (f :: rest) outbound owed flash) (hf : f.type.isAnswer = true) :
    outbound = [] ∧ owed = [] ∧ Agrees x c flash f.type := by
  cases h with
  | queued _ _ hin _ => rw [answers_cons_of hf] at hin; cases hin
  | taken _ _ _ hin _ => rw [answers_cons_of hf] at hin; cases hin
  | gone _ _ hin _ => rw [answers_cons_of hf] at hin; cases hin
  | answered answer hout howed hin hflash =>
      rw [answers_cons_of hf] at hin
      obtain ⟨rfl, -⟩ := List.cons.inj hin
      exact ⟨hout, howed, hflash⟩

/-! ## Every event keeps it -/

/-- An answer that a debt permits is in the inbound queue, or lost. -/
theorem InFlight.answer {debt : Debt} {f : Frame} {inbound' : List Frame}
    (h : InFlight x c inbound outbound [debt] flash) (hf : debt.permits f.type = true)
    (hin : inbound' = inbound ∨ inbound' = inbound ++ [f]) :
    InFlight x c inbound' outbound [] flash := by
  cases h with
  | queued _ howed _ _ => cases howed
  | answered _ _ howed _ _ => cases howed
  | gone _ howed _ _ => cases howed
  | taken d hout howed hi hflash =>
      obtain ⟨rfl, -⟩ := List.cons.inj howed
      rcases hin with rfl | rfl
      · exact .gone hout rfl hi (hflash .fatalError (by cases debt <;> rfl))
      · refine .answered f hout rfl ?_ (hflash f.type hf)
        rw [answers_append, hi, List.nil_append, answers_cons_of (isAnswer_of_permits hf)]
        rfl

theorem Coherent.passage {s s' : Session} {m m' : Mailbox} (hpass : Passage s m s' m')
    (hs : Sound board image s)
    (h : Coherent s.cursor m.inbound.items m.outbound.items owed flash s.stage) :
    Coherent s'.cursor m'.inbound.items m'.outbound.items owed flash s'.stage := by
  cases hpass with
  | quiet stage cursor hin hout =>
      rw [cursor, hin, hout]
      rcases stage with stage | stage
      · rwa [stage]
      · rw [stage]
        cases hstage : s.stage with
        | idle =>
            rw [hstage] at h
            exact .inl ⟨h.1, .inl h.2.2⟩
        | armed x =>
            rw [hstage] at h
            exact .inl ⟨h.2.1, .inl h.2.2.2⟩
        | awaiting x =>
            rw [hstage] at h
            exact h.close (hs.fits_of_awaiting hstage) _
        | closing =>
            rw [hstage] at h
            exact h
  | discard before after frame cursor hin hout =>
      rw [before] at h
      rw [cursor, hout, after]
      exact h
  -- A session arms only once its queue is empty, so that no old answer is left.
  | arm x before after cursor empty hin hout =>
      rw [before] at h
      rw [cursor, hout, after, hin]
      exact ⟨rfl, h⟩
  | send x before after cursor hin hout =>
      rw [before] at h
      obtain ⟨hans, hnil, howed, hflash⟩ := h
      have hflight : InFlight x s.cursor m.inbound.items [x.frame] owed flash :=
        .queued rfl howed hans hflash
      rw [cursor, hin, hout, hnil, List.nil_append]
      rcases after with after | after
      · rw [after]
        exact hflight
      · rw [after]
        exact hflight.close (hs.fits_of_armed before) _
  | ignore x before after frame type cursor hin hout =>
      rw [before, hin] at h
      rw [cursor, hout, after]
      exact h.of_answers (answers_cons_of_not type).symm
  | accept x before after frame type cursor hin hout =>
      rw [before, hin] at h
      obtain ⟨hnil, howed, hflash⟩ := InFlight.taken_answer h (by rw [type]; rfl)
      rw [type] at hflash
      rw [after, hout, hnil, howed, cursor]
      exact ⟨rfl, rfl, hflash⟩
  | refuse x before after frame type cursor hin hout =>
      rw [before, hin] at h
      obtain ⟨hnil, howed, hflash⟩ := InFlight.taken_answer h (by rw [type]; rfl)
      rw [type] at hflash
      rw [after, hout, hnil, howed, cursor]
      exact ⟨rfl, rfl, hflash⟩
  | conclude x before after frame type cursor hin hout =>
      rw [before] at h
      rw [hout, after, cursor]
      exact InFlight.close h (hs.fits_of_awaiting before) _

theorem agrees_of_accepted (hflash : flash = (cursorAfter x c).passed) (type : FrameType)
    (h : Debt.accepted.permits type = true) : Agrees x c flash type := by
  cases type with
  | ack => exact hflash
  | fatalError => exact .inr hflash
  | _ => exact absurd h (by decide)

theorem agrees_of_refused (hflash : flash = c.passed) (type : FrameType)
    (h : Debt.refused.permits type = true) : Agrees x c flash type := by
  cases type with
  | nack => exact hflash
  | fatalError => exact .inl hflash
  | _ => exact absurd h (by decide)

theorem agrees_of_plain (hflash : flash = c.passed) (hafter : flash = (cursorAfter x c).passed)
    (type : FrameType) (h : Debt.plain.permits type = true) : Agrees x c flash type := by
  cases type with
  | ack => exact hafter
  | nack => exact hflash
  | fatalError => exact .inl hflash
  | _ => exact absurd h (by decide)

theorem InFlight.hear {f : Frame} {rest : List Frame} (hx : x.Fits board image c)
    (h : InFlight x c inbound (f :: rest) owed flash) :
    rest = [] ∧ owed = [] ∧ f = x.frame ∧ answers inbound = [] ∧ flash = c.passed
      ∧ (f.type = .programData → (cursorAfter x c).passed = flash ++ f.payload)
      ∧ (f.type ≠ .programData → (cursorAfter x c).passed = flash) := by
  cases h with
  | taken _ hout _ _ _ => cases hout
  | answered _ hout _ _ _ => cases hout
  | gone hout _ _ _ => cases hout
  | queued hout howed hin hflash =>
      obtain ⟨rfl, rfl⟩ := List.cons.inj hout
      refine ⟨rfl, howed, rfl, hin, hflash, fun ht => ?_, fun ht => ?_⟩
      · have hchunk := hx.current?_eq ht
        have hpurpose : x.purpose ≠ .request := by
          intro hp
          exact absurd ((hx.request hp).type.symm.trans ht) (by decide)
        rw [cursorAfter, if_neg hpurpose, Cursor.passed_advance_of_current? hchunk, hflash]
      · have hpurpose : x.purpose = .request := by
          cases hp : x.purpose with
          | request => rfl
          | chunk n => exact absurd (hx.chunk hp).type ht
        rw [cursorAfter, if_pos hpurpose, hflash]

theorem hear_coherent {t : Transfer} {f : Frame} {q : Queue Frame} (accept : Bool)
    (hs : Sound board image t.session)
    (h : Coherent t.session.cursor t.mailbox.inbound.items (f :: q.items) t.owed t.flash
      t.session.stage) :
    let t' := t.hear accept f q
    Coherent t'.session.cursor t'.mailbox.inbound.items t'.mailbox.outbound.items t'.owed
      t'.flash t'.session.stage := by
  cases hstage : t.session.stage with
  | idle =>
      rw [hstage] at h
      cases h.1
  | armed x =>
      rw [hstage] at h
      cases h.2.1
  | awaiting x =>
      rw [hstage] at h
      obtain ⟨hrest, howed, rfl, hin, hflash, hdata, hother⟩ :=
        InFlight.hear (hs.fits_of_awaiting hstage) h
      unfold hear
      dsimp only
      split
      · next ht =>
        split
        · exact hstage ▸ InFlight.taken .accepted hrest (by rw [howed]; rfl) hin
            (agrees_of_accepted (hdata ht).symm)
        · exact hstage ▸ InFlight.taken .refused hrest (by rw [howed]; rfl) hin
            (agrees_of_refused hflash)
      · next ht =>
        exact hstage ▸ InFlight.taken .plain hrest (by rw [howed]; rfl) hin
          (agrees_of_plain hflash (hother ht).symm)
  | closing =>
      rw [hstage] at h
      obtain ⟨hnil, -⟩ | ⟨g, hout, hflash, hdata⟩ := h
      · cases hnil
      · obtain ⟨rfl, hrest⟩ := List.cons.inj hout
        unfold hear
        dsimp only
        split
        · next ht =>
          split
          · refine hstage ▸ .inl ⟨hrest, .inr ?_⟩
            rw [Cursor.passed_advance_of_current? (hdata ht), hflash]
          · exact hstage ▸ .inl ⟨hrest, .inl hflash⟩
        · exact hstage ▸ .inl ⟨hrest, .inl hflash⟩

theorem Coherent.answer {stage : Stage} {i : Nat} {debt : Debt} {f : Frame}
    {inbound' : List Frame} (h : Coherent c inbound outbound owed flash stage)
    (hi : owed[i]? = some debt) (hf : debt.permits f.type = true)
    (hin : inbound' = inbound ∨ inbound' = inbound ++ [f]) :
    Coherent c inbound' outbound (owed.eraseIdx i) flash stage := by
  cases stage with
  | idle =>
      obtain ⟨-, rfl, -⟩ := h
      cases hi
  | armed x =>
      obtain ⟨-, -, rfl, -⟩ := h
      cases hi
  | closing => exact h
  | awaiting x =>
      have howed : owed = [debt] ∧ i = 0 := by
        cases h with
        | queued _ howed _ _ => rw [howed] at hi; cases hi
        | answered _ _ howed _ _ => rw [howed] at hi; cases hi
        | gone _ howed _ _ => rw [howed] at hi; cases hi
        | taken d _ howed _ _ =>
            rw [howed] at hi ⊢
            cases i with
            | zero => exact ⟨by rw [Option.some.inj hi], rfl⟩
            | succ i => cases hi
      obtain ⟨rfl, rfl⟩ := howed
      exact InFlight.answer h hf hin

end

/-- What holds in every state of a transfer. -/
structure Valid (board : UInt8) (image : Firmware) (t : Transfer) : Prop where
  sound : Sound board image t.session
  coherent : Coherent t.session.cursor t.mailbox.inbound.items t.mailbox.outbound.items t.owed
    t.flash t.session.stage

section

variable {board : UInt8} {image : Firmware}

theorem start_valid (settings : Settings) (inbound : Queue Frame) (capacity : Nat)
    (cancelled : Bool) :
    Valid board image (start board image settings inbound capacity cancelled) :=
  ⟨Session.new_sound board image settings, rfl, rfl, rfl⟩

theorem apply_valid {t : Transfer} (h : Valid board image t) (event : Event) :
    Valid board image (t.apply event) := by
  cases event with
  | session now =>
      exact ⟨Session.step_sound _ now h.sound,
        h.coherent.passage (Session.step_passage now t.session t.mailbox) h.sound⟩
  | take accept =>
      simp only [apply]
      split
      · next f q hq =>
        obtain ⟨hitems, -⟩ := Queue.tryRecv_eq_ok_iff.mp hq
        have hc := h.coherent
        rw [hitems] at hc
        refine ⟨?_, hear_coherent accept h.sound hc⟩
        unfold hear
        dsimp only
        split
        · split <;> exact h.sound
        · exact h.sound
      · exact h
  | answer i f =>
      simp only [apply]
      split
      · next debt hi =>
        split
        · next hf =>
          obtain ⟨hout, hin⟩ := Mailbox.apply_deliver_items t.mailbox f
          refine ⟨h.sound, ?_⟩
          have hc := h.coherent.answer hi hf hin
          rwa [← hout] at hc
        · exact h
      · exact h
  | chatter f =>
      simp only [apply]
      split
      · exact h
      · next hf =>
        obtain ⟨hout, hin⟩ := Mailbox.apply_deliver_items t.mailbox f
        refine ⟨h.sound, ?_⟩
        have hnone : answers [f] = [] := answers_cons_of_not (by simpa using hf)
        have hans : answers (t.mailbox.apply (.deliver f)).inbound.items
            = answers t.mailbox.inbound.items := by
          rcases hin with hin | hin
          · rw [hin]
          · rw [hin, answers_append, hnone, List.append_nil]
        have hc := h.coherent.of_answers hans
        rwa [← hout] at hc
  | cancel => exact ⟨h.sound, h.coherent⟩
  | stopAnswering => exact ⟨h.sound, h.coherent⟩

theorem run_valid {t : Transfer} (h : Valid board image t) (events : List Event) :
    Valid board image (t.run events) := by
  induction events generalizing t with
  | nil => exact h
  | cons event events ih => exact ih (apply_valid h event)

/-- The board is level with the cursor, or one chunk ahead of it. -/
theorem Valid.flash_eq {t : Transfer} (h : Valid board image t) :
    t.flash = t.session.cursor.passed ∨ t.flash = t.session.cursor.advance.passed := by
  have hc := h.coherent
  cases hstage : t.session.stage with
  | idle =>
      rw [hstage] at hc
      exact .inl hc.2.2
  | armed x =>
      rw [hstage] at hc
      exact .inl hc.2.2.2
  | awaiting x =>
      rw [hstage] at hc
      cases hc with
      | queued _ _ _ hflash => exact .inl hflash
      | taken debt _ _ _ hflash =>
          exact (hflash .fatalError (by cases debt <;> rfl)).weaken
      | answered _ _ _ _ hflash => exact hflash.weaken
      | gone _ _ _ hflash => exact hflash.weaken
  | closing =>
      rw [hstage] at hc
      obtain ⟨-, hflash⟩ | ⟨-, -, hflash, -⟩ := hc
      · exact hflash
      · exact .inl hflash

/-- When the session has ended without a failure, all chunks are behind
the cursor. -/
theorem Valid.flash_of_success {t : Transfer} (h : Valid board image t) {elapsed : Duration}
    (hp : t.session.phase = .finished none elapsed) : t.flash = image.bytes.toList := by
  have hfits := h.sound.phase
  rw [hp] at hfits
  have hnone : t.session.cursor.current? = none := hfits rfl
  have hwhole : t.session.cursor.passed = image.bytes.toList := by
    rw [Cursor.passed_eq_of_le (Cursor.current?_eq_none_iff.mp hnone), h.sound.bytes,
      h.sound.image]
  rcases h.flash_eq with hflash | hflash
  · rw [hflash, hwhole]
  · rw [hflash, Cursor.passed_advance_of_none hnone, hwhole]

end

/-- Whatever happens in a transfer and in whatever order, the board has
accepted the image up to the cursor, or up to the end of the chunk at
the cursor: no chunk is skipped, repeated or out of place. When the
session reports success, the board has accepted all of the image. -/
theorem flash_follows_cursor (board : UInt8) (image : Firmware) (settings : Settings)
    (inbound : Queue Frame) (capacity : Nat) (cancelled : Bool) (events : List Event) :
    let t := (start board image settings inbound capacity cancelled).run events
    let offset := t.session.cursor.offset
    let chunk := t.session.cursor.current?.getD []
    (t.flash = image.bytes.toList.take offset
      ∨ t.flash = image.bytes.toList.take (offset + chunk.length))
    ∧ ∀ outcome, t.session.outcome? = some outcome → outcome.failure = none →
        t.flash = image.bytes.toList := by
  intro t offset chunk
  have h : Valid board image t := run_valid (start_valid settings inbound capacity cancelled) events
  have hbytes : t.session.cursor.bytes = image.bytes := h.sound.bytes.trans (by rw [h.sound.image])
  constructor
  · have hflash := h.flash_eq
    rwa [Cursor.passed_advance_eq_take, Cursor.passed, hbytes] at hflash
  · intro outcome hout hok
    unfold Session.outcome? at hout
    split at hout
    · next failure elapsed hp =>
      obtain rfl := Option.some.inj hout
      obtain rfl : failure = none := hok
      exact h.flash_of_success hp
    · obtain rfl := Option.some.inj hout
      cases hok
    · cases hout

end Transfer

end BoardFlash
