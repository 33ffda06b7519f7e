import BoardFlash.Proofs.Partition
import BoardFlash.Proofs.Session.Announcement
import BoardFlash.Proofs.Session.Reference

/-!
# Settings that a transfer works with

`Settings.validate` looks at the settings alone. What they are good for shows in a
`Dialogue`, a session with a board that takes every frame at once and answers it with an
`ack`. The queues of the dialogue have the capacity that the settings say, if the supply
has such queues at all; `validate` does not ask (`Settings.valid_without_queues`). That
apart, it checks exactly what is needed: with valid settings, and with no others, every
image that is not too large is built and its dialogue ends well
(`Settings.transfers_complete_iff`).

With such settings nothing is left to chance, and the dialogue can be followed step by
step. Between two exchanges both queues are empty (`Dialogue.calm`); an exchange is five
steps from its answer (`exchange_answered`), a chunk takes nine (`calm_chunk`), and an
induction on the chunks that are left leads to the end.

With others there is something that a session never does. Without time or without room in
the queue its request is not sent (`room_of_asked`, `time_of_asked`), and without any
transmission no chunk is counted (`chunksSent_after`).
-/

namespace BoardFlash

/-! ## Clocks -/

/-- The steps of an exchange with a board that answers at once. -/
def Session.exchangeSteps : Nat := 5

/-- What the clock shows at the steps of a session: time does not run backwards, there are
deadlines, and an exchange with a board that answers at once takes less than the response
timeout, unless that is zero. -/
structure Prompt (timeout : Duration) (clock : Nat → Instant) : Prop where
  monotone : ∀ j k, j ≤ k → (clock j).nanos ≤ (clock k).nanos
  due : ∀ k, ∃ deadline, (clock k).after? timeout = some deadline
  soon : timeout ≠ .zero → ∀ k,
    (clock (k + Session.exchangeSteps)).nanos < (clock k).nanos + timeout.toNanos

theorem Instant.nanos_of_after? {t deadline : Instant} {d : Duration}
    (h : t.after? d = some deadline) : deadline.nanos = t.nanos + d.toNanos := by
  unfold after? at h
  dsimp only at h
  split at h
  · obtain rfl := Option.some.inj h
    rfl
  · cases h

namespace Duration

theorem toNanos_pos {d : Duration} (h : d ≠ .zero) : 0 < d.toNanos := by
  refine Nat.pos_of_ne_zero fun hzero => h ?_
  obtain ⟨seconds, nanos⟩ := d
  simp only [toNanos] at hzero
  have hseconds : seconds.toNat = 0 := by omega
  have hnanos : nanos.val = 0 := by omega
  rw [zero, mk.injEq]
  exact ⟨UInt64.toNat.inj hseconds, Fin.ext hnanos⟩

theorem toNanos_lt (d : Duration) : d.toNanos < 0x10000000000000000 * 1000000000 := by
  have hseconds := d.seconds.toNat_lt
  have hnanos := d.nanos.isLt
  unfold toNanos
  omega

/-- Whatever the timeout is, there is a clock that is slow enough. -/
theorem exists_prompt (timeout : Duration) : ∃ clock, Prompt timeout clock := by
  -- at the earliest instant of all, no timeout is too long for there to be a deadline
  let earliest : Instant := ⟨-0x8000000000000000 * 1000000000⟩
  have hlt := timeout.toNanos_lt
  refine ⟨fun _ => earliest, fun _ _ _ => Int.le_refl _, fun _ => ?_, fun hsome _ => ?_⟩
  · refine ⟨_, if_pos ⟨?_, ?_⟩⟩
    · dsimp only [earliest]
      omega
    · dsimp only [earliest]
      omega
  · have hpos := toNanos_pos hsome
    dsimp only [earliest]
    omega

end Duration

/-! ## A session and a board that takes everything -/

/-- A frame holds the ids of its two ends, so it does not take fewer bytes. -/
def Frame.leastBytes : Nat := 2

/-- A session with its mailbox, and the frames that its board has taken. -/
structure Dialogue where
  post : Post
  taken : List Frame := []

/-- The session has sent a chunk, and with it `n` chunks. -/
def Session.pass (s : Session) (chunk : List UInt8) (n : UInt32) : Session :=
  { s with
    cursor := s.cursor.advance
    bytesSent := s.bytesSent + chunk.length
    chunksSent := n }

theorem Session.unlessOver_of_early {now : Instant} {s : Session} {m : Mailbox}
    {x : Session.Exchange} {next : Session.Phase} (hearly : now.nanos < x.deadline.nanos)
    (hfree : m.cancelled = false) : s.unlessOver now m x next = s.goTo m next := by
  rw [unlessOver, hfree, if_neg Bool.false_ne_true, if_neg (Int.not_le.mpr hearly)]

namespace Dialogue

/-- The board takes a frame, the oldest in the queue, and answers it. -/
def ack (d : Dialogue) (f : Frame) : Dialogue where
  post := (d.post.apply (.move (.collect 1))).apply
    (.move (.deliver (.empty .ack d.post.session.board hostId)))
  taken := d.taken ++ [f]

/-- The session takes a step, and the board answers every frame that it finds. -/
def step (now : Instant) (d : Dialogue) : Dialogue :=
  let post := d.post.apply (.step now)
  post.mailbox.outbound.items.foldl ack { d with post }

def start (board : UInt8) (image : Firmware) (settings : Settings) : Dialogue where
  post := ⟨Session.new board image settings, .ofCapacity settings.queueCapacity.toNat⟩

/-- The dialogue before its first step, if there are queues for it. -/
def open? (supply : Queue.Supply Frame) (board : UInt8) (image : Firmware) (settings : Settings) :
    Option Dialogue := do
  let queues ← Duplex.make? supply settings.queueCapacity.toNat
  return {
    post.session := Session.new board image settings
    post.mailbox := { inbound := queues.back, outbound := queues.forth } }

/-- The dialogue after `n` steps. -/
def after (clock : Nat → Instant) (d : Dialogue) : Nat → Dialogue
  | 0 => d
  | n + 1 => (after clock d n).step (clock n)

/-- There are queues, the session ends well, and the board has taken the request and then
every chunk of the image once, in order. -/
def Completes (supply : Queue.Supply Frame) (clock : Nat → Instant) (board : UInt8)
    (image : Firmware) (settings : Settings) : Prop :=
  ∃ d n elapsed, open? supply board image settings = some d
    ∧ (d.after clock n).post.session.outcome?
      = some ⟨board, none, elapsed, image.bytes.size, image.chunkCount, 0⟩
    ∧ (d.after clock n).taken.map Frame.message = Reference.request board image
      :: image.chunks.map fun chunk => ⟨.programData, hostId, board, chunk⟩

theorem open?_eq_some_iff {supply : Queue.Supply Frame} (hsupply : supply.Lawful Frame.leastBytes)
    {board : UInt8} {image : Firmware} {settings : Settings} {d : Dialogue} :
    open? supply board image settings = some d
      ↔ (supply settings.queueCapacity.toNat).isSome = true
        ∧ d = start board image settings := by
  simp only [open?, Option.bind_eq_bind, Option.bind_eq_some_iff,
    Duplex.make?_eq_some_iff hsupply]
  constructor
  · rintro ⟨queues, ⟨hsome, rfl⟩, hd⟩
    exact ⟨hsome, (Option.some.inj hd).symm⟩
  · rintro ⟨hsome, rfl⟩
    exact ⟨_, ⟨hsome, rfl⟩, rfl⟩

section

variable {clock : Nat → Instant} {now : Instant} {s : Session} {c : Nat} {taken : List Frame}
  {x : Session.Exchange}

/-- The session is in the phase, and its queues are empty. -/
def calm (s : Session) (c : Nat) (taken : List Frame) (phase : Session.Phase) : Dialogue :=
  ⟨⟨{ s with phase }, .ofCapacity c⟩, taken⟩

/-- The session is in the phase, and the answer of its board is in the queue. -/
def answered (s : Session) (c : Nat) (taken : List Frame) (phase : Session.Phase) : Dialogue where
  post.session := { s with phase }
  post.mailbox :=
    { inbound := { capacity := c, items := [.empty .ack s.board hostId] }
      outbound := { capacity := c } }
  taken

theorem calm_boundary (state : Session.State) :
    (calm s c taken (.boundary state)).step now = calm s c taken (.entered state) := rfl

theorem calm_clearing :
    (calm s c taken (.clearing x)).step now = calm s c taken (.beforeSend x) := rfl

theorem calm_beforeSend (hearly : now.nanos < x.deadline.nanos) :
    (calm s c taken (.beforeSend x)).step now = calm s c taken (.placing x) := by
  simp (disch := rfl) only [calm, Mailbox.ofCapacity, step, Post.apply, Session.step,
    Session.unlessOver_of_early hearly]
  rfl

theorem trySend_empty (hroom : 0 < c) (f : Frame) :
    ({ capacity := c } : Queue Frame).trySend f = .ok { capacity := c, items := [f] } :=
  Queue.trySend_eq_ok_iff.mpr ⟨rfl, hroom, rfl⟩

/-- The one frame in the outbound queue is taken, and an answer comes in. -/
theorem collect_deliver (hroom : 0 < c) (f answer : Frame) :
    ((⟨{ capacity := c }, { capacity := c, items := [f] }, false⟩ : Mailbox).apply
      (.collect 1)).apply (.deliver answer)
      = ⟨{ capacity := c, items := [answer] }, { capacity := c }, false⟩ := by
  have hcollect : Mailbox.apply ⟨{ capacity := c }, { capacity := c, items := [f] }, false⟩
      (.collect 1) = .ofCapacity c := rfl
  have hdeliver : (Mailbox.ofCapacity c).deliver? answer
      = some ⟨{ capacity := c, items := [answer] }, { capacity := c }, false⟩ := by
    simp only [Mailbox.deliver?, Mailbox.ofCapacity, trySend_empty hroom, if_true]
  rw [hcollect, Mailbox.apply, hdeliver, Option.getD_some]

theorem calm_placing (hroom : 0 < c) (hfirst : x.again = false) :
    (calm s c taken (.placing x)).step now
      = answered s c (taken ++ [x.frame]) (.beforeAnswer x) := by
  have hplaced (m : Mailbox) : Session.placed { s with phase := .placing x } m x
      = Session.goTo { s with phase := .placing x } m (.beforeAnswer x) :=
    if_neg (by rw [hfirst]; exact Bool.false_ne_true)
  have hsend : (Mailbox.ofCapacity c).outbound.trySend x.frame
      = .ok { capacity := c, items := [x.frame] } := trySend_empty hroom x.frame
  simp only [calm, step, Post.apply, Session.step, hsend, hplaced]
  show ack _ x.frame = _
  simp only [ack, Post.apply]
  exact congrArg (fun mailbox => Dialogue.mk ⟨{ s with phase := .beforeAnswer x }, mailbox⟩ _)
    (collect_deliver hroom x.frame _)

theorem answered_beforeAnswer (hearly : now.nanos < x.deadline.nanos) :
    (answered s c taken (.beforeAnswer x)).step now = answered s c taken (.receiving x) := by
  simp (disch := rfl) only [answered, step, Post.apply, Session.step,
    Session.unlessOver_of_early hearly]
  rfl

theorem answered_receiving_request (hpurpose : x.purpose = .request) :
    (answered s c taken (.receiving x)).step now = calm s c taken (.boundary .preparing) := by
  have haccept (m : Mailbox) : Session.accepted now { s with phase := .receiving x } m x
      = Session.goTo { s with phase := .receiving x } m (.boundary .preparing) := by
    rw [Session.accepted, hpurpose]
    exact Session.fire_prepare ..
  simp only [answered, step, Post.apply, Session.step, Queue.tryRecv, Frame.empty, haccept]
  rfl

theorem answered_receiving_chunk {refusals n : UInt32} (hpurpose : x.purpose = .chunk refusals)
    (hcount : Word.next? s.chunksSent = some n) :
    (answered s c taken (.receiving x)).step now
      = calm (s.pass x.frame.payload n) c taken (.boundary .preparing) := by
  have haccept (m : Mailbox) : Session.accepted now { s with phase := .receiving x } m x
      = (s.pass x.frame.payload n).goTo m (.boundary .preparing) := by
    simp only [Session.accepted, hpurpose, hcount]
    exact Session.fire_prepare ..
  simp only [answered, step, Post.apply, Session.step, Queue.tryRecv, Frame.empty, haccept]
  rfl

theorem calm_requesting {f : Frame} {deadline : Instant}
    (hbuilt : Frame.build .programUpdateRequest hostId s.board
      (UpdateRequest.announce s.image.chunkCount s.image.digest).encode = .ok f)
    (hdue : now.after? s.responseTimeout = some deadline) :
    (calm s c taken (.entered .requesting)).step now
      = calm s c taken (.clearing ⟨.request, f, deadline⟩) := by
  simp only [calm, step, Post.apply, Session.step, Session.work, hbuilt, Session.exchange, hdue]
  rfl

theorem calm_preparing {chunk : List UInt8} {f : Frame} (hchunk : s.cursor.current? = some chunk)
    (hbuilt : Frame.build .programData hostId s.board chunk = .ok f) :
    (calm s c taken (.entered .preparing)).step now
      = calm s c taken (.boundary (.sending (some f) 0)) := by
  simp only [calm, step, Post.apply, Session.step, Session.work, hchunk, hbuilt]
  rfl

theorem calm_prepared (hnone : s.cursor.current? = none) :
    (calm s c taken (.entered .preparing)).step now
      = calm s c taken (.boundary (.done none false)) := by
  simp only [calm, step, Post.apply, Session.step, Session.work, hnone]
  rfl

theorem calm_sending {f : Frame} {deadline : Instant} (htries : 0 < s.maxTransmissions)
    (hdue : now.after? s.responseTimeout = some deadline) :
    (calm s c taken (.entered (.sending (some f) 0))).step now
      = calm s c taken (.clearing ⟨.chunk 0, f, deadline⟩) := by
  simp only [calm, step, Post.apply, Session.step, Session.work, UInt32.not_le.mpr htries,
    if_false, Session.exchange, hdue]
  rfl

/-! ## Valid settings -/

variable {d : Dialogue} {k : Nat}

theorem exchange_answered (hprompt : Prompt s.responseTimeout clock)
    (htime : s.responseTimeout ≠ .zero) (hroom : 0 < c) (hfirst : x.again = false)
    (hdue : (clock k).after? s.responseTimeout = some x.deadline)
    (h : d.after clock (k + 1) = calm s c taken (.clearing x)) :
    d.after clock (k + 5) = answered s c (taken ++ [x.frame]) (.receiving x) := by
  have hearly (j : Nat) (hj : j ≤ k + Session.exchangeSteps) :
      (clock j).nanos < x.deadline.nanos := by
    rw [Instant.nanos_of_after? hdue]
    exact Int.lt_of_le_of_lt (hprompt.monotone _ _ hj) (hprompt.soon htime k)
  rw [after, after, after, after, h, calm_clearing,
    calm_beforeSend (hearly _ (Nat.add_le_add_left (by decide) k)), calm_placing hroom hfirst,
    answered_beforeAnswer (hearly _ (Nat.add_le_add_left (by decide) k))]

/-- The request is sent once and granted. -/
theorem calm_request (hprompt : Prompt s.responseTimeout clock)
    (htime : s.responseTimeout ≠ .zero) (hroom : 0 < c)
    (h : d.after clock k = calm s c taken (.boundary .requesting)) :
    ∃ f : Frame, f.message = Reference.request s.board s.image
      ∧ d.after clock (k + 7) = calm s c (taken ++ [f]) (.boundary .preparing) := by
  let f : Frame := ⟨.programUpdateRequest, hostId, s.board,
    (UpdateRequest.announce s.image.chunkCount s.image.digest).encode,
    by rw [UpdateRequest.length_encode]; decide⟩
  have hbuilt : Frame.build .programUpdateRequest hostId s.board
      (UpdateRequest.announce s.image.chunkCount s.image.digest).encode = .ok f :=
    Frame.build_eq_ok_iff.mpr ⟨rfl, rfl, rfl, rfl⟩
  obtain ⟨deadline, hdue⟩ := hprompt.due (k + 1)
  have hclearing : d.after clock (k + 2) = calm s c taken (.clearing ⟨.request, f, deadline⟩) := by
    rw [after, after, h, calm_boundary, calm_requesting hbuilt hdue]
  refine ⟨f, rfl, ?_⟩
  rw [after, exchange_answered hprompt htime hroom rfl hdue hclearing,
    answered_receiving_request rfl]

/-- A chunk is sent once and taken. -/
theorem calm_chunk {chunk : List UInt8} {n : UInt32} (hprompt : Prompt s.responseTimeout clock)
    (htime : s.responseTimeout ≠ .zero) (hroom : 0 < c) (htries : 0 < s.maxTransmissions)
    (hchunk : s.cursor.current? = some chunk) (hfits : chunk.length ≤ maxPayload)
    (hcount : Word.next? s.chunksSent = some n)
    (h : d.after clock k = calm s c taken (.boundary .preparing)) :
    ∃ f : Frame, f.message = ⟨.programData, hostId, s.board, chunk⟩
      ∧ d.after clock (k + 9) = calm (s.pass chunk n) c (taken ++ [f]) (.boundary .preparing) := by
  let f : Frame := ⟨.programData, hostId, s.board, chunk, hfits⟩
  have hbuilt : Frame.build .programData hostId s.board chunk = .ok f :=
    Frame.build_eq_ok_iff.mpr ⟨rfl, rfl, rfl, rfl⟩
  obtain ⟨deadline, hdue⟩ := hprompt.due (k + 3)
  have hclearing : d.after clock (k + 4) = calm s c taken (.clearing ⟨.chunk 0, f, deadline⟩) := by
    rw [after, after, after, after, h, calm_boundary, calm_preparing hchunk hbuilt, calm_boundary,
      calm_sending htries hdue]
  refine ⟨f, rfl, ?_⟩
  rw [after, exchange_answered hprompt htime hroom rfl hdue hclearing,
    answered_receiving_chunk rfl hcount]

/-- The session can be expected to send all the chunks that are left. -/
structure Fit (s : Session) : Prop where
  time : s.responseTimeout ≠ .zero
  tries : 0 < s.maxTransmissions
  size_pos : 0 < s.cursor.chunkSize
  size_le : s.cursor.chunkSize ≤ maxPayload
  count : s.chunksSent.toNat + s.cursor.left ≤ maxChunks

/-- The session `s'` has sent the chunks that `s` had left. -/
structure Through (s s' : Session) : Prop where
  board : s'.board = s.board
  bytesSent : s'.bytesSent = s.bytesSent + s.cursor.rest.flatten.length
  chunksSent : s'.chunksSent.toNat = s.chunksSent.toNat + s.cursor.left
  retransmissions : s'.retransmissions = s.retransmissions
  atEnd : s'.cursor.current? = none

theorem Through.of_pass {chunk : List UInt8} {n : UInt32} {s' : Session}
    (hsize : 0 < s.cursor.chunkSize) (hchunk : s.cursor.current? = some chunk)
    (hcount : n.toNat = s.chunksSent.toNat + 1) (h : Through (s.pass chunk n) s') :
    Through s s' where
  board := h.board
  bytesSent := by
    rw [Cursor.rest_of_some hsize hchunk, List.flatten_cons, List.length_append, ← Nat.add_assoc]
    exact h.bytesSent
  chunksSent := by
    have hlater : s'.chunksSent.toNat = n.toNat + s.cursor.advance.left := h.chunksSent
    rw [Cursor.left_eq_add_one hsize hchunk, hlater, hcount]
    omega
  retransmissions := h.retransmissions
  atEnd := h.atEnd

/-- All chunks that are left are sent once and taken. -/
theorem calm_chunks (hroom : 0 < c) (hfit : Fit s) (hprompt : Prompt s.responseTimeout clock)
    (h : d.after clock k = calm s c taken (.boundary .preparing)) :
    ∃ n s' frames, Through s s'
      ∧ frames.map Frame.message
        = s.cursor.rest.map (fun chunk => ⟨.programData, hostId, s.board, chunk⟩)
      ∧ d.after clock n = calm s' c (taken ++ frames) (.boundary .preparing) := by
  induction hrest : s.cursor.rest generalizing s k taken with
  | nil =>
      have hnone := Cursor.current?_of_rest_nil hfit.size_pos hrest
      refine ⟨k, s, [], ⟨rfl, ?_, ?_, rfl, hnone⟩, rfl, by rw [h, List.append_nil]⟩
      · rw [hrest]
        rfl
      · rw [← Cursor.length_rest, hrest]
        rfl
  | cons chunk chunks ih =>
      obtain ⟨hcurrent, hlater⟩ := Cursor.current?_of_rest_cons hfit.size_pos hrest
      have hleft := Cursor.left_eq_add_one hfit.size_pos hcurrent
      have hcounted := hfit.count
      have hfits : chunk.length ≤ maxPayload := by
        rw [(Cursor.current?_eq_some_iff.mp hcurrent).2]
        exact Nat.le_trans (List.length_take_le ..) hfit.size_le
      cases hcount : Word.next? s.chunksSent with
      | none =>
          rw [hleft, Word.next?_eq_none_iff.mp hcount, maxChunks] at hcounted
          omega
      | some n =>
          have hn := Word.toNat_of_next? hcount
          obtain ⟨f, hmessage, hnext⟩ :=
            calm_chunk hprompt hfit.time hroom hfit.tries hcurrent hfits hcount h
          have hfit' : Fit (s.pass chunk n) := by
            refine ⟨hfit.time, hfit.tries, hfit.size_pos, hfit.size_le, ?_⟩
            show n.toNat + s.cursor.advance.left ≤ maxChunks
            omega
          obtain ⟨last, s', frames, hthrough, hframes, hend⟩ := ih hfit' hprompt hnext hlater
          refine ⟨last, s', f :: frames, hthrough.of_pass hfit.size_pos hcurrent hn, ?_, ?_⟩
          · rw [List.map_cons, List.map_cons, hmessage, hframes]
            rfl
          · rw [hend, List.append_assoc, List.singleton_append]

/-- A dialogue over valid settings comes to a good end. -/
theorem completes_of_valid {origin : String} {bytes : Array UInt8} {key : List UInt8}
    {image : Firmware} {settings : Settings}
    (hbuilt : Firmware.build origin bytes settings.chunkSize key = .ok image)
    {supply : Queue.Supply Frame} (hsupply : supply.Lawful Frame.leastBytes)
    (hqueues : (supply settings.queueCapacity.toNat).isSome = true)
    (hroom : 0 < settings.queueCapacity.toNat) (htries : 0 < settings.maxTransmissions)
    (htime : settings.responseTimeout ≠ .zero) (hprompt : Prompt settings.responseTimeout clock)
    (board : UInt8) : Completes supply clock board image settings := by
  have hcut := Firmware.wellCut_of_build hbuilt
  let s : Session := { Session.new board image settings with started := clock 0 }
  have hbegun : (start board image settings).after clock 1
      = calm s settings.queueCapacity.toNat [] (.boundary .requesting) := rfl
  obtain ⟨f, hmessage, hgranted⟩ := calm_request (s := s) hprompt htime hroom hbegun
  have hall : 0 + image.cursor.left = image.chunkCount.toNat := by rw [hcut.count, Nat.zero_add]
  have hfit : Fit s := by
    refine ⟨htime, htries, hcut.size_pos, hcut.size_le, ?_⟩
    show 0 + image.cursor.left ≤ maxChunks
    rw [hall]
    exact Nat.le_of_lt_succ image.chunkCount.toNat_lt
  obtain ⟨n, s', frames, hthrough, hframes, hsent⟩ := calm_chunks hroom hfit hprompt hgranted
  have hend : (start board image settings).after clock (n + 3)
      = calm s' settings.queueCapacity.toNat ([] ++ [f] ++ frames)
          (.entered (.done none false)) := by
    rw [after, after, after, hsent, calm_boundary, calm_prepared hthrough.atEnd, calm_boundary]
  refine ⟨_, n + 4, (clock (n + 3)).since s'.started, (open?_eq_some_iff hsupply).mpr ⟨hqueues, rfl⟩, ?_⟩
  rw [after, hend]
  refine ⟨?_, ?_⟩
  · have hbytes : s'.bytesSent = image.bytes.size := by
      rw [hthrough.bytesSent]
      show 0 + image.cursor.rest.flatten.length = image.bytes.size
      rw [hcut.rest_eq, hcut.flatten_chunks, Nat.zero_add, Array.length_toList]
    have hchunks : s'.chunksSent = image.chunkCount :=
      UInt32.toNat.inj (hthrough.chunksSent.trans hall)
    have houtcome : ((calm s' settings.queueCapacity.toNat ([] ++ [f] ++ frames)
        (.entered (.done none false))).step (clock (n + 3))).post.session.outcome?
        = some ⟨s'.board, none, (clock (n + 3)).since s'.started, s'.bytesSent, s'.chunksSent,
          s'.retransmissions⟩ := rfl
    rw [houtcome, hthrough.board, hbytes, hchunks, hthrough.retransmissions]
    rfl
  · show (f :: frames).map Frame.message = _
    rw [List.map_cons, hmessage, hframes, ← hcut.rest_eq]
    rfl

end

/-! ## Settings that are not valid -/

/-- The board leaves the session as it is, and the size of its queue. -/
theorem foldl_ack (d : Dialogue) (frames : List Frame) :
    (frames.foldl ack d).post.session = d.post.session
    ∧ (frames.foldl ack d).post.mailbox.outbound.capacity
      = d.post.mailbox.outbound.capacity := by
  induction frames generalizing d with
  | nil => exact ⟨rfl, rfl⟩
  | cons f frames ih =>
      obtain ⟨hsession, hcapacity⟩ := ih (d.ack f)
      refine ⟨hsession, hcapacity.trans ?_⟩
      have hdeliver := (Mailbox.apply_deliver_items (d.post.mailbox.apply (.collect 1))
        (.empty .ack d.post.session.board hostId)).1
      have hcollect : (d.post.mailbox.apply (.collect 1)).outbound.capacity
          = d.post.mailbox.outbound.capacity := by
        simp only [Mailbox.apply]
        split
        · rfl
        · rfl
      exact (congrArg Queue.capacity hdeliver).trans hcollect

theorem session_step (now : Instant) (d : Dialogue) :
    (d.step now).post.session = (d.post.session.step now d.post.mailbox).session :=
  (foldl_ack _ _).1

theorem capacity_step (now : Instant) (d : Dialogue) :
    (d.step now).post.mailbox.outbound.capacity = d.post.mailbox.outbound.capacity :=
  (foldl_ack _ _).2.trans (Session.step_mailbox now d.post.session d.post.mailbox).outboundCapacity

end Dialogue

namespace Session

/-- The deadline of the exchange is not ahead, and so its frame is never about to go in
the queue. -/
def Phase.Overdue (now : Instant) : Phase → Prop
  | .clearing x | .beforeSend x => x.deadline.nanos ≤ now.nanos
  | .placing _ => False
  | _ => True

theorem Phase.Overdue.mono {now later : Instant} {phase : Phase} (h : phase.Overdue now)
    (hlater : now.nanos ≤ later.nanos) : phase.Overdue later := by
  cases phase with
  | clearing x | beforeSend x => exact Int.le_trans h hlater
  | placing x => exact h
  | _ => trivial

/-- Without any time a deadline has passed as soon as there is one. -/
theorem Course.overdue {now : Instant} {s : Session} {m : Mailbox} {r : Reaction}
    (h : Course now s m r) (htime : s.responseTimeout = .zero) (hs : s.phase.Overdue now) :
    r.session.phase.Overdue now := by
  cases h with
  | request _ deadline _ _ due result | send _ _ deadline _ _ due result =>
      subst result
      rw [htime] at due
      have hdeadline := Instant.nanos_of_after? due
      exact Int.le_of_eq (hdeadline.trans (Int.add_zero _))
  | discard _ _ _ phase _ result | clear _ phase _ result =>
      subst result
      rw [phase] at hs
      exact hs
  | trySend x phase _ early _ =>
      rw [phase] at hs
      exact absurd hs (Int.not_le.mpr early)
  | hold _ phase _ _ =>
      rw [phase] at hs
      exact hs.elim
  | idle _ result =>
      subst result
      exact hs
  | start _ result | stop _ _ _ _ result | enter _ _ _ result | prepare _ _ _ _ _ result
  | complete _ _ result | exhaust _ _ _ _ result | cancel _ _ _ result | expire _ _ _ _ result
  | tryReceive _ _ _ _ result | place _ _ _ _ _ _ result | lose _ _ result
  | grant _ _ _ _ _ _ _ result | accept _ _ _ _ _ _ _ _ _ _ result
  | reject _ _ _ _ _ _ _ result | refuse _ _ _ _ _ _ _ _ _ _ result
  | fail _ _ _ _ _ _ result | ignore _ _ _ _ _ _ result | await _ _ _ _ result
  | giveUp _ _ _ _ result | finish _ _ _ result | crash _ _ _ result =>
      subst result
      trivial

/-- A session without a failure has come to its end. -/
theorem phase_of_outcome? {s : Session} {outcome : Outcome}
    (h : s.outcome? = some outcome) (hnone : outcome.failure = none) :
    s.phase = .finished none outcome.elapsed := by
  unfold outcome? at h
  split at h
  · next failure elapsed hphase =>
    obtain rfl := Option.some.inj h
    rw [hphase, ← hnone]
  · obtain rfl := Option.some.inj h
    cases hnone
  · cases h

/-- Where no chunk may be sent none is counted. -/
theorem Course.chunksSent_of_limit_zero {now : Instant} {s : Session} {m : Mailbox} {r : Reaction}
    (h : Course now s m r) (hs : s.phase.AtMost 0) : r.session.chunksSent = s.chunksSent := by
  cases h with
  | accept x refusals _ _ _ phase _ _ purpose _ _ =>
      rw [phase] at hs
      exact absurd (hs refusals purpose) UInt32.not_lt_zero
  | _ => simp_all only

end Session

namespace Dialogue

section

variable {clock : Nat → Instant} {board : UInt8} {image : Firmware} {settings : Settings}

theorem capacity_after (n : Nat) :
    ((start board image settings).after clock n).post.mailbox.outbound.capacity
      = settings.queueCapacity.toNat := by
  induction n with
  | zero => rfl
  | succ n ih => exact (capacity_step _ _).trans ih

theorem responseTimeout_after (n : Nat) :
    ((start board image settings).after clock n).post.session.responseTimeout
      = settings.responseTimeout := by
  induction n with
  | zero => rfl
  | succ n ih =>
      rw [after, session_step, Session.step_responseTimeout]
      exact ih

theorem steady_after (hcut : image.WellCut) (clock : Nat → Instant) (board : UInt8)
    (settings : Settings) (n : Nat) :
    ((start board image settings).after clock n).post.session.Steady board image
      settings.maxTransmissions := by
  induction n with
  | zero => exact .init hcut board settings
  | succ n ih =>
      rw [after, session_step]
      exact ih.step hcut _ _

/-- The request goes in the queue in time and where there is room, or never. -/
theorem asked_step {n : Nat}
    (hbefore : ¬ ((start board image settings).after clock n).post.session.phase.Asked)
    (hafter : ((start board image settings).after clock (n + 1)).post.session.phase.Asked) :
    0 < settings.queueCapacity.toNat
    ∧ ∃ x, ((start board image settings).after clock n).post.session.phase = .placing x := by
  rw [after, session_step] at hafter
  obtain hasked | ⟨x, outbound, phase, hsent, -⟩ := (Session.step_course _ _ _).asked hafter
  · exact absurd hasked hbefore
  · obtain ⟨-, hroom, -⟩ := Queue.trySend_eq_ok_iff.mp hsent
    rw [capacity_after] at hroom
    exact ⟨Nat.zero_lt_of_lt hroom, x, phase⟩

theorem room_of_asked {n : Nat}
    (hasked : ((start board image settings).after clock n).post.session.phase.Asked) :
    0 < settings.queueCapacity.toNat := by
  induction n with
  | zero => exact hasked.elim
  | succ n ih =>
      by_cases hbefore : ((start board image settings).after clock n).post.session.phase.Asked
      · exact ih hbefore
      · exact (asked_step hbefore hasked).1

theorem overdue_after (board : UInt8) (image : Firmware)
    (hprompt : Prompt settings.responseTimeout clock) (htime : settings.responseTimeout = .zero) (n : Nat) :
    ((start board image settings).after clock n).post.session.phase.Overdue (clock n) := by
  induction n with
  | zero => trivial
  | succ n ih =>
      rw [after, session_step]
      refine Session.Phase.Overdue.mono ?_ (hprompt.monotone n (n + 1) (Nat.le_succ n))
      exact (Session.step_course _ _ _).overdue ((responseTimeout_after n).trans htime) ih

theorem time_of_asked (hprompt : Prompt settings.responseTimeout clock) {n : Nat}
    (hasked : ((start board image settings).after clock n).post.session.phase.Asked) :
    settings.responseTimeout ≠ .zero := by
  intro htime
  induction n with
  | zero => exact hasked.elim
  | succ n ih =>
      by_cases hbefore : ((start board image settings).after clock n).post.session.phase.Asked
      · exact ih hbefore
      · obtain ⟨-, x, phase⟩ := asked_step hbefore hasked
        have hlate := overdue_after board image hprompt htime n
        rw [phase] at hlate
        exact hlate

theorem chunksSent_after (hcut : image.WellCut) (htries : settings.maxTransmissions = 0) (n : Nat) :
    ((start board image settings).after clock n).post.session.chunksSent = 0 := by
  induction n with
  | zero => rfl
  | succ n ih =>
      have hatMost := (steady_after hcut clock board settings n).refusals
      rw [htries] at hatMost
      rw [after, session_step, (Session.step_course _ _ _).chunksSent_of_limit_zero hatMost]
      exact ih

/-- A dialogue that comes to a good end is one over valid settings. -/
theorem valid_of_finished {origin : String} {bytes : Array UInt8} {key : List UInt8}
    (hbuilt : Firmware.build origin bytes settings.chunkSize key = .ok image)
    (hprompt : Prompt settings.responseTimeout clock) {n : Nat} {elapsed : Duration}
    (hfinished : ((start board image settings).after clock n).post.session.phase
      = .finished none elapsed) :
    0 < settings.queueCapacity.toNat ∧ settings.responseTimeout ≠ .zero
    ∧ settings.maxTransmissions ≠ 0 := by
  have hcut := Firmware.wellCut_of_build hbuilt
  have hasked : ((start board image settings).after clock n).post.session.phase.Asked := by
    rw [hfinished]
    rfl
  refine ⟨room_of_asked hasked, time_of_asked hprompt hasked, fun htries => ?_⟩
  have hsteady := steady_after hcut clock board settings n
  have hcount := hsteady.chunksSent_of_finished hcut hfinished
  rw [chunksSent_after hcut htries] at hcount
  have hsome := Firmware.size_pos_of_build hbuilt
  have hle := hcut.le_mul (j := 0) (Nat.le_of_eq (congrArg UInt32.toNat hcount.symm))
  omega

end

end Dialogue

/-! ## The check is exact -/

namespace Firmware

variable {origin : String} {bytes : Array UInt8} {chunkSize : UInt64} {key : List UInt8}

/-- One byte is never too large. -/
theorem build_singleton_ne_tooLarge (b : UInt8) (size limit : Nat) :
    build origin #[b] chunkSize key ≠ .error (.firmwareTooLarge size limit) := by
  intro hrefused
  by_cases hzero : chunkSize = 0
  · rw [build, if_pos hzero] at hrefused
    cases hrefused
  by_cases hlarge : maxPayload < chunkSize.toNat
  · rw [build, if_neg hzero, if_pos hlarge] at hrefused
    cases hrefused
  have hpos : 0 < chunkSize.toNat :=
    Nat.pos_of_ne_zero fun h => hzero (UInt64.toNat.inj h)
  have hsome : 0 < (#[b] : Array UInt8).size := Nat.zero_lt_one
  have hmany := (build_tooLarge_iff hpos (Nat.le_of_not_lt hlarge) hsome).mp
    ⟨size, limit, hrefused⟩
  have hone : (1 + (chunkSize.toNat - 1)) / chunkSize.toNat = 1 := by
    rw [Nat.add_sub_cancel' hpos, Nat.div_self hpos]
  rw [show (#[b] : Array UInt8).size = 1 from rfl, hone] at hmany
  exact absurd hmany (by decide)

end Firmware

namespace Settings

theorem fault?_eq_none_iff {s : Settings} :
    s.fault? = none ↔ (0 < s.chunkSize.toNat ∧ s.chunkSize.toNat ≤ maxPayload)
      ∧ s.maxTransmissions ≠ 0 ∧ s.responseTimeout ≠ .zero ∧ 0 < s.queueCapacity.toNat
      ∧ s.cliBoard ≠ some hostId := by
  have hzero (n : UInt64) : 0 < n.toNat ↔ n ≠ 0 := by
    rw [ne_eq n, ← UInt64.toNat_inj, UInt64.toNat_zero, Nat.pos_iff_ne_zero]
  rw [hzero, hzero, ← Nat.not_lt, ← not_or, fault?]
  split_ifs <;> simp [*]

theorem validate_eq_ok_iff {s : Settings} : s.validate = .ok () ↔ s.fault? = none := by
  unfold validate
  cases s.fault? <;> simp

/-- Every image that is not too large is built, and a board that answers every frame at once
with an `ack` is updated with it, each chunk being sent once, if and only if the
settings are valid and the supply has queues of their capacity. -/
theorem transfers_complete_iff (s : Settings) (hcli : s.cliBoard ≠ some hostId)
    (supply : Queue.Supply Frame) (hsupply : supply.Lawful Frame.leastBytes) :
    (∃ clock, Prompt s.responseTimeout clock)
    ∧ ∀ clock, Prompt s.responseTimeout clock → ∀ (board : UInt8) (key : List UInt8),
      s.validate = .ok () ∧ (supply s.queueCapacity.toNat).isSome = true
      ↔ ∀ bytes : Array UInt8, 0 < bytes.size →
        (∀ size limit, Firmware.build Firmware.inMemory bytes s.chunkSize key
          ≠ .error (.firmwareTooLarge size limit)) →
        ∃ image, Firmware.build Firmware.inMemory bytes s.chunkSize key = .ok image
          ∧ Dialogue.Completes supply clock board image s := by
  refine ⟨s.responseTimeout.exists_prompt, fun clock hprompt board key => ?_⟩
  rw [validate_eq_ok_iff, fault?_eq_none_iff]
  constructor
  · rintro ⟨⟨⟨hpos, hmax⟩, htries, htime, hroom, -⟩, hqueues⟩ bytes hsome hsmall
    obtain ⟨hrefused, -⟩ | ⟨⟨image, hbuilt⟩, -⟩ :=
      Firmware.build_cases Firmware.inMemory key hpos hmax hsome
    · exact absurd hrefused (hsmall _ _)
    · exact ⟨image, hbuilt, Dialogue.completes_of_valid hbuilt hsupply hqueues hroom
        (UInt32.pos_iff_ne_zero.mpr htries) htime hprompt board⟩
  · intro hall
    obtain ⟨image, hbuilt, d, n, elapsed, hopen, houtcome, -⟩ := hall #[0] Nat.zero_lt_one
      (Firmware.build_singleton_ne_tooLarge 0)
    obtain ⟨hqueues, rfl⟩ := (Dialogue.open?_eq_some_iff hsupply).mp hopen
    have hcut := Firmware.wellCut_of_build hbuilt
    obtain ⟨hroom, htime, htries⟩ := Dialogue.valid_of_finished hbuilt hprompt
      (Session.phase_of_outcome? houtcome rfl)
    obtain ⟨count, -, -, -, -, -, rfl⟩ := Firmware.build_eq_ok hbuilt
    exact ⟨⟨⟨hcut.size_pos, hcut.size_le⟩, htries, htime, hroom, hcli⟩, hqueues⟩

/-- A machine with room for queues of up to a thousand frames. -/
def smallSupply : Queue.Supply Frame := fun capacity =>
  if capacity ≤ 1000 then some { capacity } else none

theorem smallSupply_lawful : smallSupply.Lawful Frame.leastBytes := by
  have hroom {capacity : Nat} {q : Queue Frame} (h : smallSupply capacity = some q) :
      capacity ≤ 1000 ∧ q = { capacity } := by
    unfold smallSupply at h
    split at h
    · next hle => exact ⟨hle, (Option.some.inj h).symm⟩
    · cases h
  refine ⟨fun h => (hroom h).2, fun h => ?_⟩
  refine Nat.lt_of_le_of_lt (Nat.mul_le_mul_right _ (hroom h).1) ?_
  decide

/-- The largest chunks, one place in each queue and one transmission. -/
theorem least_settings_complete :
    let s : Settings := { chunkSize := 16384, queueCapacity := 1, maxTransmissions := 1 }
    let image : Firmware := ⟨#[1, 2, 3], Hmac.mac [1, 2, 3] [], 16384, 1⟩
    s.cliBoard ≠ some hostId ∧ smallSupply.Lawful Frame.leastBytes
    ∧ Firmware.build Firmware.inMemory #[1, 2, 3] s.chunkSize [] = .ok image
    ∧ ∃ clock, Prompt s.responseTimeout clock
      ∧ Dialogue.Completes smallSupply clock 7 image s := by
  intro s image
  have hcli : s.cliBoard ≠ some hostId := nofun
  have himage : Firmware.build Firmware.inMemory #[1, 2, 3] 16384 [] = .ok image := rfl
  have hvalid : s.validate = .ok () ∧ (smallSupply s.queueCapacity.toNat).isSome = true := by
    decide
  obtain ⟨⟨clock, hprompt⟩, hexact⟩ :=
    transfers_complete_iff s hcli smallSupply smallSupply_lawful
  have hall := (hexact clock hprompt 7 []).mp hvalid #[1, 2, 3] (by decide)
  rw [himage] at hall
  obtain ⟨built, hbuilt, hcompletes⟩ := hall fun _ _ => nofun
  obtain rfl := Except.ok.inj hbuilt
  exact ⟨hcli, smallSupply_lawful, himage, clock, hprompt, hcompletes⟩

/-- The settings are valid, but there are no addresses for so many places. -/
theorem valid_without_queues :
    let s : Settings := { chunkSize := 4, queueCapacity := 4611686018427387904 }
    let bytes : Array UInt8 := #[0, 1, 2, 3, 4, 5, 6, 7, 8, 9]
    let image : Firmware := ⟨bytes, Hmac.mac bytes.toList s.key, 4, 3⟩
    s.cliBoard ≠ some hostId ∧ s.validate = .ok ()
    ∧ (∃ clock, Prompt s.responseTimeout clock)
    ∧ Firmware.build Firmware.inMemory bytes s.chunkSize s.key = .ok image
    ∧ ∀ supply : Queue.Supply Frame, supply.Lawful Frame.leastBytes →
      ∀ clock board, ¬ Dialogue.Completes supply clock board image s := by
  intro s bytes image
  have himage : Firmware.build Firmware.inMemory #[0, 1, 2, 3, 4, 5, 6, 7, 8, 9] 4 s.key
      = .ok image := rfl
  refine ⟨nofun, by decide, s.responseTimeout.exists_prompt, himage, ?_⟩
  rintro supply hsupply clock board ⟨d, n, elapsed, hopen, -⟩
  obtain ⟨hqueues, -⟩ := (Dialogue.open?_eq_some_iff hsupply).mp hopen
  obtain ⟨q, hq⟩ := Option.isSome_iff_exists.mp hqueues
  exact absurd (hsupply.addressable hq) (by decide)

end Settings

end BoardFlash
