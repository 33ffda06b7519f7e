import BoardFlash.Proofs.Session.Steady
import Mathlib.Data.Finset.Card
import Mathlib.Data.Finset.Dedup

/-!
# The counters of a session

An `Audit` is a session with its mailbox and what an observer counts: the
frames with data that go in the outbound queue, each with the place of its chunk
in the image, and the chunks that are answered with an `ack`. The session itself
counts bytes, chunks and frames that it has sent again, at different moments and
in three numbers. In every run, however it ends, these agree with what the
observer has counted (`Audit.counters_exact`).

A step that leaves the counters alone is `Tally.nothing`; it neither queues a
frame nor takes an answer. `Phase.tried?` tells whether the frame of the chunk
at the cursor has been in the queue before, so the observer and the session
agree on what is sent again.
-/

namespace BoardFlash

namespace Post

/-- The session takes an `ack` for a chunk. -/
def hearsAck (p : Post) : Bool :=
  match p.session.phase with
  | .receiving x =>
    x.frame.type == .programData && p.mailbox.inbound.items.head?.any (·.type == .ack)
  | _ => false

/-- The frames that the session puts in its outbound queue. -/
def enqueued (p : Post) (now : Instant) : List Frame :=
  (p.apply (.step now)).mailbox.outbound.items.drop p.mailbox.outbound.items.length

end Post

/-- A session with its mailbox, and what an observer counts. -/
structure Audit where
  post : Post
  /-- Of each frame with data that was queued, where its chunk begins. -/
  queued : List Nat := []
  /-- Of each chunk that was answered with an `ack`, where it begins. -/
  acked : List Nat := []

namespace Audit

def apply (a : Audit) (e : Post.Event) : Audit :=
  match e with
  | .step now =>
    let place := a.post.session.cursor.offset
    { post := a.post.apply e
      queued := a.queued
        ++ ((a.post.enqueued now).filter (·.type = .programData)).map fun _ => place
      acked := a.acked ++ if a.post.hearsAck then [place] else [] }
  | .kill | .move _ => { a with post := a.post.apply e }

def run (a : Audit) (events : List Post.Event) : Audit := events.foldl apply a

/-- An observer of a session that has not begun. -/
def start (board : UInt8) (image : Firmware) (settings : Settings) (mailbox : Mailbox) :
    Audit where
  post := ⟨Session.new board image settings, mailbox⟩

/-- The frames with data that were queued, but for the first one of each
chunk. -/
def repeats (a : Audit) : Nat := a.queued.length - a.queued.toFinset.card

theorem post_run (a : Audit) (events : List Post.Event) :
    (a.run events).post = a.post.run events := by
  induction events generalizing a with
  | nil => rfl
  | cons e events ih =>
      have hpost : (a.apply e).post = a.post.apply e := by cases e <;> rfl
      rw [Post.run_cons, ← hpost]
      exact ih (a.apply e)

end Audit

namespace Session

/-- The frame of the chunk at the cursor has been in the outbound queue;
nothing where no more frames are sent. -/
def Phase.tried? : Phase → Option Bool
  | .waiting => some false
  | .boundary state | .entered state =>
    match state with
    | .requesting | .preparing => some false
    | .sending _ refusals => some (decide (0 < refusals))
    | .done .. => none
  | .clearing x | .beforeSend x | .placing x => some x.again
  | .beforeAnswer x | .receiving x => some (decide (x.purpose ≠ .request))
  | .lost _ | .finished .. | .crashed _ => none

/-- What a step does to the counters. -/
inductive Tally (s : Session) (m : Mailbox) (r : Reaction) : Prop where
  | nothing (cursor : r.session.cursor = s.cursor) (bytesSent : r.session.bytesSent = s.bytesSent)
      (chunksSent : r.session.chunksSent = s.chunksSent)
      (retransmissions : r.session.retransmissions = s.retransmissions)
      (outbound : r.mailbox.outbound.items = m.outbound.items)
      (unheard : Post.hearsAck ⟨s, m⟩ = false)
      (tried : ∀ b, r.session.phase.tried? = some b → s.phase.tried? = some b)
      (down : ∀ fault, r.session.phase = .crashed fault →
        s.phase = .crashed fault ∨ fault = .deadlineOverflow)
  | queue (x : Exchange) (retransmissions : UInt32) (phase : s.phase = .placing x)
      (count : retransmissions.toNat = s.retransmissions.toNat + x.again.toNat)
      (session : r.session = { s with retransmissions, phase := .beforeAnswer x })
      (outbound : r.mailbox.outbound.items = m.outbound.items ++ [x.frame])
  | overflow (x : Exchange) (phase : s.phase = .placing x) (again : x.again = true)
      (most : s.retransmissions.toNat = 4294967295)
      (session : r.session = { s with phase := .crashed .counterOverflow })
      (outbound : r.mailbox.outbound.items = m.outbound.items ++ [x.frame])
  | hear (x : Exchange) (refusals chunksSent : UInt32) (phase : s.phase = .receiving x)
      (purpose : x.purpose = .chunk refusals) (heard : Post.hearsAck ⟨s, m⟩ = true)
      (count : chunksSent.toNat = s.chunksSent.toNat + 1)
      (session : r.session = { s with
        cursor := s.cursor.advance
        bytesSent := s.bytesSent + x.frame.payload.length
        chunksSent
        phase := .boundary .preparing })
      (outbound : r.mailbox.outbound.items = m.outbound.items)

/-- No chunk is left to be sent, so the session may only end well or be
stopped. -/
def Phase.Closing : Phase → Prop
  | .boundary state | .entered state =>
    match state with
    | .preparing => True
    | .done failure _ => failure = none ∨ failure = some .cancelled
    | _ => False
  | .finished failure _ => failure = none ∨ failure = some .cancelled
  | .crashed fault => fault = .killed
  | _ => False

section

variable {board : UInt8} {image : Firmware} {limit : UInt32} {now : Instant} {s : Session}
  {m : Mailbox} {r : Reaction}

theorem Exchange.Fits.type_eq_iff {cursor : Cursor} {x : Exchange}
    (h : x.Fits board image cursor) : x.frame.type = .programData ↔ x.purpose ≠ .request := by
  cases hp : x.purpose with
  | request => simp [(h.request hp).type]
  | chunk n => simp [(h.chunk hp).type]

theorem Exchange.Fits.data_of_again {cursor : Cursor} {x : Exchange}
    (h : x.Fits board image cursor) (hagain : x.again = true) : x.frame.type = .programData := by
  refine h.type_eq_iff.mpr fun hrequest => ?_
  rw [Exchange.again, hrequest] at hagain
  cases hagain

theorem hearsAck_of_taken {x : Exchange} {frame : Frame} {inbound : Queue Frame}
    (phase : s.phase = .receiving x) (taken : m.inbound.tryRecv = .ok (frame, inbound)) :
    Post.hearsAck ⟨s, m⟩ = (x.frame.type == .programData && frame.type == .ack) := by
  simp only [Post.hearsAck, phase, (Queue.tryRecv_eq_ok_iff.mp taken).1, List.head?_cons,
    Option.any_some]

theorem hearsAck_of_empty {x : Exchange} (phase : s.phase = .receiving x)
    (empty : m.inbound.items = []) : Post.hearsAck ⟨s, m⟩ = false := by
  simp [Post.hearsAck, phase, empty]

theorem hearsAck_of_phase (hphase : ∀ x, s.phase ≠ .receiving x) :
    Post.hearsAck ⟨s, m⟩ = false := by
  unfold Post.hearsAck
  split
  · next x hp => exact absurd hp (hphase x)
  · rfl

theorem Course.tally (hcut : image.WellCut) (hs : s.Steady board image limit)
    (h : Course now s m r) : Tally s m r := by
  have hfits := hs.sound.phase
  cases h with
  | place x outbound retransmissions phase sent count result =>
      obtain ⟨-, -, rfl⟩ := Queue.trySend_eq_ok_iff.mp sent
      subst result
      refine .queue x retransmissions phase ?_ rfl rfl
      cases hagain : x.again with
      | true =>
          rw [hagain, if_pos rfl] at count
          exact Word.toNat_of_next? count
      | false =>
          rw [hagain] at count
          exact congrArg UInt32.toNat count
  | accept x refusals frame inbound chunksSent phase taken type purpose count result =>
      rw [phase] at hfits
      subst result
      refine .hear x refusals chunksSent phase purpose ?_ (Word.toNat_of_next? count) rfl rfl
      rw [hearsAck_of_taken phase taken, type, (hfits.chunk purpose).type]
      rfl
  | crash fault m' why result =>
      subst result
      rcases hs.fault_of_breaks hcut why with ⟨rfl, rfl, -, state, phase, -⟩
        | ⟨rfl, x, outbound, phase, again, most, sent, rfl⟩
      · exact .nothing rfl rfl rfl rfl rfl (hearsAck_of_phase fun x => by simp [phase])
          (by rintro _ ⟨⟩) fun fault hfault => .inr (Session.Phase.crashed.inj hfault).symm
      · obtain ⟨-, -, rfl⟩ := Queue.trySend_eq_ok_iff.mp sent
        exact .overflow x phase again most rfl rfl
  | idle hover result =>
      subst result
      refine .nothing rfl rfl rfl rfl rfl (hearsAck_of_phase fun x hp => ?_) (fun b hb => hb)
        fun fault hfault => .inl hfault
      rw [isOver, hp] at hover
      cases hover
  | lose x closed result =>
      subst result
      refine .nothing rfl rfl rfl rfl rfl ?_ (by rintro _ ⟨⟩) (by rintro _ ⟨⟩)
      rcases closed with ⟨phase, -⟩ | ⟨phase, empty, -⟩
      · exact hearsAck_of_phase fun x => by simp [phase]
      · exact hearsAck_of_empty phase empty
  | grant x frame inbound phase taken type purpose result =>
      rw [phase] at hfits
      subst result
      refine .nothing rfl rfl rfl rfl rfl ?_ (fun b hb => ?_) (by rintro _ ⟨⟩)
      · rw [hearsAck_of_taken phase taken, (hfits.request purpose).type]
        rfl
      · rw [phase, ← hb]
        simp [Phase.tried?, purpose]
  | refuse x refusals refusals' frame inbound phase taken type purpose count result =>
      subst result
      refine .nothing rfl rfl rfl rfl rfl ?_ (fun b hb => ?_) (by rintro _ ⟨⟩)
      · rw [hearsAck_of_taken phase taken, type]
        exact Bool.and_false _
      · have hpos : 0 < refusals' := by
          rw [UInt32.lt_iff_toNat_lt, Word.toNat_of_next? count]
          exact Nat.succ_pos _
        rw [phase, ← hb]
        simp [Phase.tried?, purpose, hpos]
  | ignore x frame inbound phase taken type result =>
      subst result
      refine .nothing rfl rfl rfl rfl rfl ?_ (fun b hb => phase ▸ hb) (by rintro _ ⟨⟩)
      rw [hearsAck_of_taken phase taken]
      cases htype : frame.type with
      | ack =>
          rw [htype] at type
          cases type
      | _ => exact Bool.and_false _
  | await x phase empty _ result =>
      subst result
      exact .nothing rfl rfl rfl rfl rfl (hearsAck_of_empty phase empty)
        (fun b hb => phase ▸ hb) (by rintro _ ⟨⟩)
  | reject x frame inbound phase taken type _ result
  | fail x frame inbound phase taken type result =>
      subst result
      refine .nothing rfl rfl rfl rfl rfl ?_ (by rintro _ ⟨⟩) (by rintro _ ⟨⟩)
      rw [hearsAck_of_taken phase taken, type]
      exact Bool.and_false _
  | cancel x phase _ result | expire x phase _ _ result =>
      subst result
      refine .nothing rfl rfl rfl rfl rfl (hearsAck_of_phase fun y hp => ?_)
        (by rintro _ ⟨⟩) (by rintro _ ⟨⟩)
      rcases phase with phase | phase <;> (rw [phase] at hp; cases hp)
  | stop _ phase _ _ result | complete phase _ result | exhaust _ _ phase _ result
  | giveUp _ _ phase _ result | finish _ _ phase result =>
      subst result
      exact .nothing rfl rfl rfl rfl rfl (hearsAck_of_phase fun x => by simp [phase])
        (by rintro _ ⟨⟩) (by rintro _ ⟨⟩)
  | enter _ phase _ result | start phase result | request _ _ phase _ _ result
  | prepare _ _ phase _ _ result | send _ _ _ phase _ _ result | discard _ _ _ phase _ result
  | clear _ phase _ result | trySend _ phase _ _ result | tryReceive _ phase _ _ result
  | hold _ phase _ result =>
      subst result
      exact .nothing rfl rfl rfl rfl rfl (hearsAck_of_phase fun x => by simp [phase])
        (fun b hb => phase ▸ hb) (by rintro _ ⟨⟩)

/-- A session with no chunk left keeps to that. -/
theorem Course.closing (h : Course now s m r)
    (hs : s.cursor.current? = none → s.phase.Closing) :
    r.session.cursor.current? = none → r.session.phase.Closing := by
  intro hnone
  cases h with
  | accept _ _ _ _ _ _ _ _ _ _ result =>
      subst result
      trivial
  | idle _ result =>
      subst result
      exact hs hnone
  | prepare chunk _ _ chunk_eq _ result =>
      subst result
      rw [chunk_eq] at hnone
      cases hnone
  | crash fault m' why result =>
      subst result
      have hclosing := hs hnone
      cases why with
      | chunk chunk _ _ chunk_eq _ =>
          rw [chunk_eq] at hnone
          cases hnone
      | overdue state phase sends _ =>
          rw [phase] at hclosing
          rcases sends with rfl | ⟨packet, refusals, rfl⟩
          · exact hclosing.elim
          · exact hclosing.elim
      | announcement _ phase _ | taken _ phase _ | placed _ _ phase _ _ _
      | accepted _ _ _ _ phase _ _ _ _ | refused _ _ _ _ phase _ _ _ _ =>
          rw [phase] at hclosing
          exact hclosing.elim
  | stop _ _ _ _ result =>
      subst result
      exact .inr rfl
  | complete _ _ result =>
      subst result
      exact .inl rfl
  | enter state phase _ result =>
      subst result
      have hclosing := hs hnone
      rw [phase] at hclosing
      cases state <;> exact hclosing
  | finish failure reported phase result =>
      subst result
      have hclosing := hs hnone
      rw [phase] at hclosing
      exact hclosing
  | cancel _ phase _ result | expire _ phase _ _ result =>
      subst result
      have hclosing := hs hnone
      rcases phase with phase | phase <;> (rw [phase] at hclosing; exact hclosing.elim)
  | lose _ closed result =>
      subst result
      have hclosing := hs hnone
      rcases closed with ⟨phase, -⟩ | ⟨phase, -⟩ <;> (rw [phase] at hclosing; exact hclosing.elim)
  | start phase result | request _ _ phase _ _ result | send _ _ _ phase _ _ result
  | exhaust _ _ phase _ result | discard _ _ _ phase _ result | clear _ phase _ result
  | trySend _ phase _ _ result | tryReceive _ phase _ _ result | place _ _ _ phase _ _ result
  | hold _ phase _ result | grant _ _ _ phase _ _ _ result | reject _ _ _ phase _ _ _ result
  | refuse _ _ _ _ _ phase _ _ _ _ result | fail _ _ _ phase _ _ result
  | ignore _ _ _ phase _ _ result | await _ phase _ _ result | giveUp _ _ phase _ result =>
      subst result
      have hclosing := hs hnone
      rw [phase] at hclosing
      exact hclosing.elim

end

end Session

namespace Audit

/-- The session's counters agree with what the observer has counted. -/
structure Exact (image : Firmware) (a : Audit) : Prop where
  bytesSent : a.post.session.bytesSent = a.post.session.cursor.offset
  offset : a.post.session.cursor.offset
    = min (a.post.session.chunksSent.toNat * image.chunkSize) image.bytes.size
  acked : a.acked = (List.range a.post.session.chunksSent.toNat).map (· * image.chunkSize)
  behind : ∀ place ∈ a.queued, place ≤ a.post.session.cursor.offset
  tried : ∀ b, a.post.session.phase.tried? = some b →
    (a.post.session.cursor.offset ∈ a.queued ↔ b = true)
  balance : a.post.session.retransmissions.toNat + a.queued.toFinset.card = a.queued.length
    ∨ 4294967296 + a.queued.toFinset.card ≤ a.queued.length
  closing : a.post.session.cursor.current? = none → a.post.session.phase.Closing
  down : ∀ fault, a.post.session.phase = .crashed fault →
    fault = .killed ∨ fault = .deadlineOverflow
      ∨ fault = .counterOverflow ∧ 4294967296 + a.queued.toFinset.card ≤ a.queued.length

section

variable {board : UInt8} {image : Firmware} {limit : UInt32} {a : Audit} {now : Instant}

theorem queued_of_same (houtbound : (a.post.apply (.step now)).mailbox.outbound.items
    = a.post.mailbox.outbound.items) : (a.apply (.step now)).queued = a.queued := by
  simp only [apply, Post.enqueued, houtbound, List.drop_length, List.filter_nil, List.map_nil,
    List.append_nil]

theorem queued_of_append {f : Frame} (houtbound : (a.post.apply (.step now)).mailbox.outbound.items
    = a.post.mailbox.outbound.items ++ [f]) : (a.apply (.step now)).queued
      = a.queued ++ if f.type = .programData then [a.post.session.cursor.offset] else [] := by
  simp only [apply, Post.enqueued, houtbound, List.drop_left]
  by_cases hdata : f.type = .programData
  · simp [hdata]
  · simp [hdata]

theorem acked_of_unheard (h : a.post.hearsAck = false) :
    (a.apply (.step now)).acked = a.acked := by
  simp only [apply, h]
  exact List.append_nil _

theorem acked_of_heard (h : a.post.hearsAck = true) :
    (a.apply (.step now)).acked = a.acked ++ [a.post.session.cursor.offset] := by
  simp only [apply, h, if_true]

/-- A place is a new one of the frames that were queued, or one more. -/
theorem card_append_singleton (places : List Nat) (place : Nat) :
    (places ++ [place]).toFinset.card
      = places.toFinset.card + if place ∈ places then 0 else 1 := by
  rw [List.toFinset_append, List.toFinset_cons, List.toFinset_nil, insert_empty_eq]
  by_cases hmem : place ∈ places
  · rw [if_pos hmem, Nat.add_zero, Finset.union_eq_left.mpr]
    simpa using hmem
  · rw [if_neg hmem, Finset.union_comm, ← Finset.insert_eq, Finset.card_insert_of_notMem]
    simpa using hmem

/-- The counters after a step that leaves them alone. -/
theorem Exact.same {b : Audit} (h : a.Exact image) (hqueued : b.queued = a.queued)
    (hacked : b.acked = a.acked)
    (hcursor : b.post.session.cursor = a.post.session.cursor)
    (hbytes : b.post.session.bytesSent = a.post.session.bytesSent)
    (hchunks : b.post.session.chunksSent = a.post.session.chunksSent)
    (hretransmissions : b.post.session.retransmissions = a.post.session.retransmissions)
    (htried : ∀ t, b.post.session.phase.tried? = some t → a.post.session.phase.tried? = some t)
    (hclosing : b.post.session.cursor.current? = none → b.post.session.phase.Closing)
    (hdown : ∀ fault, b.post.session.phase = .crashed fault →
      a.post.session.phase = .crashed fault ∨ fault = .deadlineOverflow ∨ fault = .killed) :
    b.Exact image where
  bytesSent := by rw [hbytes, hcursor, h.bytesSent]
  offset := by rw [hcursor, hchunks, h.offset]
  acked := by rw [hacked, hchunks, h.acked]
  behind := by
    rw [hqueued, hcursor]
    exact h.behind
  tried := by
    rw [hqueued, hcursor]
    exact fun t ht => h.tried t (htried t ht)
  balance := by
    rw [hqueued, hretransmissions]
    exact h.balance
  closing := hclosing
  down := by
    intro fault hfault
    rw [hqueued]
    rcases hdown fault hfault with hbefore | hlate | hkilled
    · exact h.down fault hbefore
    · exact .inr (.inl hlate)
    · exact .inl hkilled

/-- A frame that goes in the queue belongs to the chunk at the cursor. -/
theorem Exact.behind_queue (h : a.Exact image) {type : FrameType} {queued : List Nat}
    (hqueued : queued
      = a.queued ++ if type = .programData then [a.post.session.cursor.offset] else []) :
    ∀ place ∈ queued, place ≤ a.post.session.cursor.offset := by
  intro place hplace
  rw [hqueued, List.mem_append] at hplace
  rcases hplace with hbefore | hnow
  · exact h.behind place hbefore
  · split at hnow
    · exact Nat.le_of_eq (List.mem_singleton.mp hnow)
    · cases hnow

theorem Exact.current?_ne_none (h : a.Exact image) {x : Session.Exchange}
    (hphase : a.post.session.phase = .placing x) : a.post.session.cursor.current? ≠ none := by
  intro hnone
  have hclosing := h.closing hnone
  rw [hphase] at hclosing
  exact hclosing

/-- A frame that was put in the queue is counted as sent again if its chunk has
been there before. -/
theorem Exact.queue {b : Audit} {x : Session.Exchange} {retransmissions : UInt32}
    (h : a.Exact image) (hfits : x.Fits board image a.post.session.cursor)
    (hphase : a.post.session.phase = .placing x)
    (hcount : retransmissions.toNat = a.post.session.retransmissions.toNat + x.again.toNat)
    (hsession : b.post.session = { a.post.session with retransmissions, phase := .beforeAnswer x })
    (hqueued : b.queued
      = a.queued ++ if x.frame.type = .programData then [a.post.session.cursor.offset] else [])
    (hacked : b.acked = a.acked) : b.Exact image := by
  have htried : a.post.session.cursor.offset ∈ a.queued ↔ x.again = true :=
    h.tried x.again (by rw [hphase]; rfl)
  refine ⟨hsession ▸ h.bytesSent, hsession ▸ h.offset, ?_, ?_, ?_, ?_, ?_, ?_⟩
  · rw [hacked, hsession]
    exact h.acked
  · rw [hsession]
    exact h.behind_queue hqueued
  · intro t ht
    rw [hsession] at ht ⊢
    obtain rfl := Option.some.inj ht
    rw [hqueued, List.mem_append, htried, decide_eq_true_eq, ← hfits.type_eq_iff]
    by_cases hdata : x.frame.type = .programData
    · simp [hdata]
    · have hfirst : ¬ x.again = true := fun hagain => hdata (hfits.data_of_again hagain)
      simp [hdata, hfirst]
  · rw [hqueued, hsession]
    dsimp only
    split
    · rw [card_append_singleton, List.length_append, List.length_singleton, hcount]
      have hbalance := h.balance
      cases hagain : x.again with
      | true =>
          rw [if_pos (htried.mpr hagain), Bool.toNat_true]
          omega
      | false =>
          have hfirst : a.post.session.cursor.offset ∉ a.queued := by
            rw [htried, hagain]
            exact Bool.false_ne_true
          rw [if_neg hfirst, Bool.toNat_false]
          omega
    · next hdata =>
      have hfirst : x.again = false :=
        Bool.eq_false_iff.mpr fun hagain => hdata (hfits.data_of_again hagain)
      rw [List.append_nil, hcount, hfirst]
      exact h.balance
  · rw [hsession]
    exact fun hnone => absurd hnone (h.current?_ne_none hphase)
  · rw [hsession]
    exact nofun

/-- The session broke down because it could not count the frame. -/
theorem Exact.overflow {b : Audit} {x : Session.Exchange} (h : a.Exact image)
    (hfits : x.Fits board image a.post.session.cursor)
    (hphase : a.post.session.phase = .placing x) (hagain : x.again = true)
    (hmost : a.post.session.retransmissions.toNat = 4294967295)
    (hsession : b.post.session = { a.post.session with phase := .crashed .counterOverflow })
    (hqueued : b.queued
      = a.queued ++ if x.frame.type = .programData then [a.post.session.cursor.offset] else [])
    (hacked : b.acked = a.acked) : b.Exact image := by
  have hseen : a.post.session.cursor.offset ∈ a.queued :=
    (h.tried x.again (by rw [hphase]; rfl)).mpr hagain
  have hmany : 4294967296 + b.queued.toFinset.card ≤ b.queued.length := by
    have hbalance := h.balance
    rw [hqueued, if_pos (hfits.data_of_again hagain), card_append_singleton, if_pos hseen,
      List.length_append, List.length_singleton]
    omega
  refine ⟨hsession ▸ h.bytesSent, hsession ▸ h.offset, ?_, ?_, ?_, ?_, ?_, ?_⟩
  · rw [hacked, hsession]
    exact h.acked
  · rw [hsession]
    exact h.behind_queue hqueued
  · intro t ht
    rw [hsession] at ht
    cases ht
  · exact .inr hmany
  · rw [hsession]
    exact fun hnone => absurd hnone (h.current?_ne_none hphase)
  · rw [hsession]
    rintro fault ⟨⟩
    exact .inr (.inr ⟨rfl, hmany⟩)

/-- The chunk at the cursor is with the board, and no frame of the next one has
been in the queue. -/
theorem Exact.hear {b : Audit} {x : Session.Exchange} {refusals chunksSent : UInt32}
    (hcut : image.WellCut) (h : a.Exact image) (hs : a.post.session.Steady board image limit)
    (hphase : a.post.session.phase = .receiving x) (hpurpose : x.purpose = .chunk refusals)
    (hcount : chunksSent.toNat = a.post.session.chunksSent.toNat + 1)
    (hsession : b.post.session = { a.post.session with
      cursor := a.post.session.cursor.advance
      bytesSent := a.post.session.bytesSent + x.frame.payload.length
      chunksSent
      phase := .boundary .preparing })
    (hqueued : b.queued = a.queued)
    (hacked : b.acked = a.acked ++ [a.post.session.cursor.offset]) : b.Exact image := by
  have hfits := hs.sound.phase
  rw [hphase] at hfits
  obtain ⟨hmore, hchunk⟩ := Cursor.current?_eq_some_iff.mp (hfits.chunk hpurpose).payload
  have hsize := hcut.size_pos
  have hoffset := h.offset
  rw [hs.bytes_eq] at hmore
  have hhere : a.post.session.cursor.offset
      = a.post.session.chunksSent.toNat * image.chunkSize := by omega
  have hadvance : a.post.session.cursor.advance.offset
      = min (a.post.session.cursor.offset + image.chunkSize) image.bytes.size := by
    rw [← hs.chunkSize_eq, ← hs.bytes_eq]
    rfl
  refine ⟨?_, ?_, ?_, ?_, ?_, ?_, ?_, ?_⟩
  · rw [hsession]
    dsimp only
    rw [hadvance, h.bytesSent, hchunk, List.length_take, List.length_drop, Array.length_toList,
      hs.bytes_eq, hs.chunkSize_eq]
    omega
  · rw [hsession]
    dsimp only
    rw [hadvance, hhere, hcount, Nat.succ_mul]
  · rw [hacked, hsession, h.acked, hcount, List.range_succ, List.map_append, hhere]
    rfl
  · intro place hplace
    rw [hqueued] at hplace
    have hle := h.behind place hplace
    rw [hsession]
    dsimp only
    omega
  · intro t ht
    rw [hsession] at ht ⊢
    obtain rfl := Option.some.inj ht
    dsimp only
    rw [hqueued]
    refine ⟨fun hmem => ?_, nofun⟩
    have hle := h.behind _ hmem
    omega
  · rw [hqueued, hsession]
    exact h.balance
  · rw [hsession]
    exact fun _ => trivial
  · rw [hsession]
    exact nofun

theorem Exact.step (hcut : image.WellCut) (h : a.Exact image)
    (hs : a.post.session.Steady board image limit) (now : Instant) :
    (a.apply (.step now)).Exact image := by
  have hcourse := Session.step_course now a.post.session a.post.mailbox
  have hfits := hs.sound.phase
  cases hcourse.tally hcut hs with
  | nothing cursor bytesSent chunksSent retransmissions outbound unheard tried down =>
      exact h.same (queued_of_same outbound) (acked_of_unheard unheard) cursor bytesSent chunksSent
        retransmissions tried (hcourse.closing h.closing) fun fault hfault =>
          (down fault hfault).imp id .inl
  | queue x retransmissions phase count session outbound =>
      have hunheard := Session.hearsAck_of_phase (s := a.post.session)
        (m := a.post.mailbox) fun y => by simp [phase]
      rw [phase, hs.sound.board, hs.sound.image] at hfits
      exact h.queue hfits phase count session (queued_of_append outbound)
        (acked_of_unheard hunheard)
  | overflow x phase again most session outbound =>
      have hunheard := Session.hearsAck_of_phase (s := a.post.session)
        (m := a.post.mailbox) fun y => by simp [phase]
      rw [phase, hs.sound.board, hs.sound.image] at hfits
      exact h.overflow hfits phase again most session (queued_of_append outbound)
        (acked_of_unheard hunheard)
  | hear x refusals chunksSent phase purpose heard count session outbound =>
      exact h.hear hcut hs phase purpose count session (queued_of_same outbound)
        (acked_of_heard heard)

theorem Exact.kill (h : a.Exact image) : (a.apply .kill).Exact image := by
  have hpost : (a.apply .kill).post = a.post.apply .kill := rfl
  cases hover : a.post.session.isOver with
  | true =>
      refine h.same rfl rfl ?_ ?_ ?_ ?_ ?_ ?_ ?_ <;> rw [hpost, Post.apply_kill_of_over hover]
      · exact fun t ht => ht
      · exact h.closing
      · exact fun fault hfault => .inl hfault
  | false =>
      refine h.same rfl rfl ?_ ?_ ?_ ?_ ?_ ?_ ?_ <;> rw [hpost, Post.apply_kill_of_live hover]
      · rfl
      · rfl
      · rfl
      · rfl
      · exact nofun
      · exact fun _ => rfl
      · exact fun fault hfault => .inr (.inr (Session.Phase.crashed.inj hfault).symm)

theorem Exact.apply (hcut : image.WellCut) (h : a.Exact image)
    (hs : a.post.session.Steady board image limit) (e : Post.Event) :
    (a.apply e).Exact image := by
  cases e with
  | step now => exact h.step hcut hs now
  | kill => exact h.kill
  | move change =>
      exact h.same rfl rfl rfl rfl rfl rfl (fun t ht => ht) h.closing
        fun fault hfault => .inl hfault

theorem Exact.run (hcut : image.WellCut) (h : a.Exact image)
    (hs : a.post.session.Steady board image limit) (events : List Post.Event) :
    (a.run events).Exact image := by
  induction events generalizing a with
  | nil => exact h
  | cons e events ih =>
      have hpost : (a.apply e).post = a.post.apply e := by cases e <;> rfl
      exact ih (h.apply hcut hs e) (hpost ▸ Post.steady_apply hcut hs e)

theorem start_exact (hsome : 0 < image.bytes.size) (board : UInt8)
    (settings : Settings) (mailbox : Mailbox) :
    (start board image settings mailbox).Exact image where
  bytesSent := rfl
  offset := by
    show 0 = min (0 * image.chunkSize) image.bytes.size
    rw [Nat.zero_mul, Nat.zero_min]
  acked := rfl
  behind := nofun
  tried := fun b hb => by
    obtain rfl := Option.some.inj hb
    exact ⟨nofun, nofun⟩
  balance := .inl rfl
  closing := fun hnone => absurd (Cursor.current?_eq_none_iff.mp hnone) (Nat.not_le.mpr hsome)
  down := nofun

end

/-! ## The counters are exact -/

/-- What the counters of a session are at any time. -/
structure Counted (image : Firmware) (a : Audit) : Prop where
  bytesSent : a.post.session.bytesSent = a.post.session.cursor.offset
  offset : a.post.session.cursor.offset
    = min (a.post.session.chunksSent.toNat * image.chunkSize) image.bytes.size
  chunksSent : a.post.session.chunksSent.toNat = a.acked.length
  /-- Each chunk is answered once, one after the other. -/
  acked : a.acked = (List.range a.acked.length).map (· * image.chunkSize)
  retransmissions : a.repeats < 4294967296 → a.post.session.retransmissions.toNat = a.repeats
  /-- The outcome of a session that does not break down carries the counters. -/
  outcome : ∀ failure elapsed, a.post.session.phase = .finished failure elapsed →
    a.post.session.outcome? = some ⟨a.post.session.board, failure, elapsed,
      a.post.session.bytesSent, a.post.session.chunksSent, a.post.session.retransmissions⟩
  success : ∀ elapsed, a.post.session.phase = .finished none elapsed →
    a.post.session.chunksSent = image.chunkCount ∧ a.post.session.bytesSent = image.bytes.size
  complete : a.post.session.chunksSent = image.chunkCount → ∀ failure elapsed,
    a.post.session.phase = .finished failure elapsed → failure = none ∨ failure = some .cancelled
  /-- A session that has sent all chunks does not break down by itself. -/
  unbroken : a.post.session.chunksSent = image.chunkCount → ∀ fault,
    a.post.session.phase = .crashed fault → fault = .killed
  /-- It breaks down only when it is stopped from outside, when there is no such
  deadline, or when it has sent too many frames again to count them. -/
  crashed : ∀ fault, a.post.session.phase = .crashed fault →
    fault = .killed ∨ fault = .deadlineOverflow
      ∨ fault = .counterOverflow ∧ 4294967296 ≤ a.repeats

theorem Exact.counted {board : UInt8} {image : Firmware} {limit : UInt32} {a : Audit}
    (hcut : image.WellCut) (h : a.Exact image) (hs : a.post.session.Steady board image limit) :
    Counted image a where
  bytesSent := h.bytesSent
  offset := h.offset
  chunksSent := by rw [h.acked, List.length_map, List.length_range]
  acked := by
    rw [h.acked, List.length_map, List.length_range]
  retransmissions := by
    intro hfew
    have hbalance := h.balance
    unfold repeats at hfew ⊢
    omega
  outcome := by
    intro failure elapsed hphase
    rw [Session.outcome?, hphase]
  success := by
    intro elapsed hphase
    have hend := Cursor.current?_eq_none_iff.mp (hs.current?_of_finished hphase)
    refine ⟨hs.chunksSent_of_finished hcut hphase, ?_⟩
    rw [h.bytesSent, ← hs.bytes_eq]
    exact Nat.le_antisymm hs.sound.offset_le hend
  complete := by
    intro hall failure elapsed hphase
    have hclosing := h.closing (hs.current?_eq_none hcut hall)
    rw [hphase] at hclosing
    exact hclosing
  unbroken := by
    intro hall fault hphase
    have hclosing := h.closing (hs.current?_eq_none hcut hall)
    rw [hphase] at hclosing
    exact hclosing
  crashed := by
    intro fault hphase
    refine (h.down fault hphase).imp id (Or.imp id fun hmany => ⟨hmany.1, ?_⟩)
    have hlength := hmany.2
    unfold repeats
    omega

theorem steady_run {image : Firmware} (hcut : image.WellCut) (board : UInt8)
    (settings : Settings) (mailbox : Mailbox) (events : List Post.Event) :
    ((start board image settings mailbox).run events).post.session.Steady board image
      settings.maxTransmissions := by
  rw [post_run]
  exact Post.steady_run hcut (Session.Steady.init hcut board settings) events

theorem exact_run {origin : String} {bytes : Array UInt8} {chunkSize : UInt64}
    {key : List UInt8} {image : Firmware}
    (hbuilt : Firmware.build origin bytes chunkSize key = .ok image) (board : UInt8)
    (settings : Settings) (mailbox : Mailbox) (events : List Post.Event) :
    ((start board image settings mailbox).run events).Exact image :=
  have hcut := Firmware.wellCut_of_build hbuilt
  (start_exact (Firmware.size_pos_of_build hbuilt) board settings mailbox).run hcut
    (steady_run hcut board settings mailbox []) events

/-- However a run of a session goes on, its counters are exact at any time. -/
theorem counters_exact {origin : String} {bytes : Array UInt8} {chunkSize : UInt64}
    {key : List UInt8} {image : Firmware}
    (hbuilt : Firmware.build origin bytes chunkSize key = .ok image) (board : UInt8)
    (settings : Settings) (mailbox : Mailbox) (events : List Post.Event) :
    Counted image ((start board image settings mailbox).run events) :=
  have hcut := Firmware.wellCut_of_build hbuilt
  (exact_run hbuilt board settings mailbox events).counted hcut
    (steady_run hcut board settings mailbox events)

/-- The first chunk is refused and sent again, but not before there is room for
it; the session is cancelled while the second chunk is on its way. -/
def refusedThenCancelled : List Post.Event :=
  let steps (n : Nat) : List Post.Event := List.replicate n (.step .origin)
  let comes (type : FrameType) : List Post.Event :=
    [.move (.collect 1), .move (.deliver (.empty type 7 hostId))]
  steps 7 ++ comes .ack ++ steps 11 ++ [.move (.deliver (.empty .nack 7 hostId))] ++ steps 9
    ++ comes .cliData ++ steps 3 ++ comes .ack ++ steps 9 ++ .move .cancel :: steps 6

theorem counted_when_cancelled :
    let image : Firmware := ⟨#[1, 2, 3], Hmac.mac [1, 2, 3] [], 2, 2⟩
    let a := (start 7 image {} (.ofCapacity 1)).run refusedThenCancelled
    a.queued = [0, 0, 2]
    ∧ a.post.session.outcome? = some ⟨7, some .cancelled, .zero, 2, 1, 1⟩
    ∧ Counted image a := by
  intro image a
  refine ⟨by decide +kernel, by decide +kernel, ?_⟩
  exact @counters_exact "firmware" #[1, 2, 3] 2 [] image rfl 7 {} (.ofCapacity 1)
    refusedThenCancelled

end Audit

end BoardFlash
