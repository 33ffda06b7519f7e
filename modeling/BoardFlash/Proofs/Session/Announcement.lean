import BoardFlash.Proofs.Occurrences
import BoardFlash.Proofs.Session.Counters
import BoardFlash.Proofs.Wire.Request
import BoardFlash.Proofs.Wire.RoundTrip

/-!
# The announcement of a transfer

A `Logbook` is a session with its mailbox and what an observer keeps of the
frames that go in the outbound queue: each of them with the place of the cursor
in the image. The first frame of every run is the request. What it announces
is what follows: a session that ends well has sent as many chunks as it
announced, and together they have the digest that it announced
(`announced_transfer_follows`).

Before the request is in the queue no other frame goes in (`Phase.Asked` holds in
the phases that are only reached after it). From then on the chunks that have
been sent, each counted once, are the first ones of the image in order
(`Logbook.Regular`): all those before the cursor, and the one at the cursor if it
has been tried.
-/

namespace BoardFlash

namespace Session

/-- The request has been in the outbound queue; of the phases at the end, only
those of a session that ends well are meant. -/
def Phase.Asked : Phase → Prop
  | .boundary state | .entered state =>
    match state with
    | .requesting => False
    | .preparing | .sending .. => True
    | .done failure _ => failure = none
  | .clearing x | .beforeSend x | .placing x => x.purpose ≠ .request
  | .beforeAnswer _ | .receiving _ => True
  | .finished failure _ => failure = none
  | .waiting | .lost _ | .crashed _ => False

/-- A session comes past its request only by putting a frame in the queue. -/
theorem Course.asked {now : Instant} {s : Session} {m : Mailbox} {r : Reaction}
    (h : Course now s m r) (hasked : r.session.phase.Asked) :
    s.phase.Asked
    ∨ ∃ x outbound, s.phase = .placing x ∧ m.outbound.trySend x.frame = .ok outbound
      ∧ r.mailbox.outbound = outbound := by
  cases h with
  | place x outbound _ phase sent _ result => exact .inr ⟨x, outbound, phase, sent, result ▸ rfl⟩
  | idle _ result =>
      subst result
      exact .inl hasked
  | enter state phase _ result =>
      subst result
      rw [phase]
      exact .inl (by cases state <;> exact hasked)
  | send packet refusals _ phase _ _ result =>
      rw [phase]
      exact .inl trivial
  | finish failure _ phase result =>
      subst result
      rw [phase]
      exact .inl hasked
  | prepare _ _ phase _ _ _ | complete phase _ _ | grant _ _ _ phase _ _ _ _
  | accept _ _ _ _ _ phase _ _ _ _ _ | refuse _ _ _ _ _ phase _ _ _ _ _
  | ignore _ _ _ phase _ _ _ | await _ phase _ _ _ | tryReceive _ phase _ _ _ =>
      rw [phase]
      exact .inl trivial
  | discard _ _ _ phase _ result | clear _ phase _ result | trySend _ phase _ _ result
  | hold _ phase _ result =>
      subst result
      rw [phase]
      exact .inl hasked
  | start _ result =>
      subst result
      exact hasked.elim
  | request _ _ _ _ _ result =>
      subst result
      exact absurd rfl hasked
  | stop _ _ _ _ result | exhaust _ _ _ _ result | cancel _ _ _ result | expire _ _ _ _ result
  | reject _ _ _ _ _ _ _ result | fail _ _ _ _ _ _ result | giveUp _ _ _ _ result =>
      subst result
      cases hasked
  | lose _ _ result | crash _ _ _ result =>
      subst result
      exact hasked.elim

end Session

/-! ## The chunks with their places -/

namespace Firmware

/-- The chunks of the image, each with the place where it begins. -/
def parcels (image : Firmware) : List (Nat × List UInt8) :=
  (List.range image.chunkCount.toNat).map fun j =>
    (j * image.chunkSize, (image.bytes.toList.drop (j * image.chunkSize)).take image.chunkSize)

theorem map_snd_parcels (image : Firmware) : image.parcels.map Prod.snd = image.chunks := by
  rw [parcels, chunks, List.map_map]
  rfl

theorem map_fst_parcels (image : Firmware) :
    image.parcels.map Prod.fst = (List.range image.chunkCount.toNat).map (· * image.chunkSize) := by
  rw [parcels, List.map_map]
  rfl

@[simp] theorem length_parcels (image : Firmware) :
    image.parcels.length = image.chunkCount.toNat := by
  simp [parcels]

theorem getElem?_parcels {image : Firmware} {j : Nat} (hj : j < image.chunkCount.toNat) :
    image.parcels[j]? = some (j * image.chunkSize,
      (image.bytes.toList.drop (j * image.chunkSize)).take image.chunkSize) := by
  rw [parcels, List.getElem?_map, List.getElem?_range hj]
  rfl

theorem fst_lt_of_mem_take {image : Firmware} (hsize : 0 < image.chunkSize) {n : Nat}
    {p : Nat × List UInt8} (hp : p ∈ image.parcels.take n) : p.1 < n * image.chunkSize := by
  rw [parcels, ← List.map_take, List.mem_map] at hp
  obtain ⟨j, hj, rfl⟩ := hp
  rw [List.take_range, List.mem_range] at hj
  exact Nat.mul_lt_mul_of_pos_right (Nat.lt_of_lt_of_le hj (Nat.min_le_left ..)) hsize

end Firmware

/-! ## Keeping a log -/

/-- A session with its mailbox, and the frames that it has put in its outbound
queue, each with the place where the cursor was. -/
structure Logbook where
  post : Post
  sent : List (Nat × Frame) := []

namespace Logbook

def apply (l : Logbook) (e : Post.Event) : Logbook where
  post := l.post.apply e
  sent :=
    match e with
    | .step now => l.sent ++ (l.post.enqueued now).map fun f => (l.post.session.cursor.offset, f)
    | .kill | .move _ => l.sent

def run (l : Logbook) (events : List Post.Event) : Logbook := events.foldl apply l

/-- The log of a session that has not begun. -/
def start (board : UInt8) (image : Firmware) (settings : Settings) (mailbox : Mailbox) :
    Logbook where
  post := ⟨Session.new board image settings, mailbox⟩

/-- The chunks that were sent with their places, as often as they were sent. -/
def parcels (l : Logbook) : List (Nat × List UInt8) :=
  (l.sent.filter (·.2.type = .programData)).map fun (place, f) => (place, f.payload)

/-- The chunk that an entry adds to those that were sent. -/
def parcel (place : Nat) (f : Frame) : List (Nat × List UInt8) :=
  if f.type = .programData then [(place, f.payload)] else []

theorem post_run (l : Logbook) (events : List Post.Event) :
    (l.run events).post = l.post.run events := by
  induction events generalizing l with
  | nil => rfl
  | cons e events ih => exact ih (l.apply e)

theorem sent_of_same {l : Logbook} {now : Instant}
    (houtbound : (l.post.apply (.step now)).mailbox.outbound.items
      = l.post.mailbox.outbound.items) : (l.apply (.step now)).sent = l.sent := by
  simp only [apply, Post.enqueued, houtbound, List.drop_length, List.map_nil, List.append_nil]

theorem sent_of_append {l : Logbook} {now : Instant} {f : Frame}
    (houtbound : (l.post.apply (.step now)).mailbox.outbound.items
      = l.post.mailbox.outbound.items ++ [f]) :
    (l.apply (.step now)).sent = l.sent ++ [(l.post.session.cursor.offset, f)] := by
  simp only [apply, Post.enqueued, houtbound, List.drop_left, List.map_cons, List.map_nil]

theorem parcels_of_append {l b : Logbook} {place : Nat} {f : Frame}
    (hsent : b.sent = l.sent ++ [(place, f)]) : b.parcels = l.parcels ++ parcel place f := by
  rw [parcels, hsent, List.filter_append, List.map_append, parcels, parcel]
  by_cases hdata : f.type = .programData
  · simp [hdata]
  · simp [hdata]

/-! ## What the log says -/

/-- The log begins with the request. The chunks in it, each taken once, are the
first ones of the image. -/
structure Regular (board : UInt8) (image : Firmware) (l : Logbook) : Prop where
  first : ∀ entry, l.sent.head? = some entry → Session.Announces board image entry.2
  asked : l.post.session.phase.Asked → l.sent ≠ []
  parcels : ∃ n, l.parcels.eraseDups = image.parcels.take n
    ∧ l.post.session.chunksSent.toNat ≤ n ∧ n ≤ image.chunkCount.toNat
    ∧ ∀ b, l.post.session.phase.tried? = some b →
      n = l.post.session.chunksSent.toNat + b.toNat

section

variable {board : UInt8} {image : Firmware} {limit : UInt32} {l b : Logbook}

theorem Regular.same (h : l.Regular board image) (hsent : b.sent = l.sent)
    (hchunks : b.post.session.chunksSent = l.post.session.chunksSent)
    (hasked : b.post.session.phase.Asked → b.sent ≠ [])
    (htried : ∀ t, b.post.session.phase.tried? = some t →
      l.post.session.phase.tried? = some t) : b.Regular board image where
  first := by
    rw [hsent]
    exact h.first
  asked := hasked
  parcels := by
    obtain ⟨n, hparcels, hle, hmost, hn⟩ := h.parcels
    rw [Logbook.parcels, hsent, hchunks]
    exact ⟨n, hparcels, hle, hmost, fun t ht => hn t (htried t ht)⟩

/-- The frame of a chunk carries the next one of the image. -/
theorem parcel_of_chunk {s : Session} (hcut : image.WellCut) (hs : s.Steady board image limit)
    (hoffset : s.cursor.offset = min (s.chunksSent.toNat * image.chunkSize) image.bytes.size)
    {f : Frame} (hcarries : Session.Carries board s.cursor f) :
    s.chunksSent.toNat < image.chunkCount.toNat
    ∧ image.parcels[s.chunksSent.toNat]? = some (s.cursor.offset, f.payload) := by
  obtain ⟨hmore, hpayload⟩ := Cursor.current?_eq_some_iff.mp hcarries.payload
  have hcounted := hs.counted
  rw [Cursor.left_eq_add_one (hs.chunkSize_pos hcut) hcarries.payload] at hcounted
  rw [hs.bytes_eq] at hmore
  have hhere : s.chunksSent.toNat * image.chunkSize = s.cursor.offset := by omega
  have hnext : s.chunksSent.toNat < image.chunkCount.toNat := by omega
  refine ⟨hnext, ?_⟩
  rw [Firmware.getElem?_parcels hnext, hpayload, hs.bytes_eq, hs.chunkSize_eq, hhere]

/-- The chunk that is sent is the last one that was sent, or the one after it. -/
theorem eraseDups_of_parcel {parcels : List (Nat × List UInt8)} {n k : Nat}
    {p : Nat × List UInt8} (hsize : 0 < image.chunkSize)
    (hparcels : parcels.eraseDups = image.parcels.take n) (hp : image.parcels[k]? = some p)
    (hn : n = k ∨ n = k + 1) : (parcels ++ [p]).eraseDups = image.parcels.take (k + 1) := by
  have hlisted : p ∈ parcels ↔ p ∈ image.parcels.take n := by
    rw [← hparcels, List.mem_eraseDups]
  rw [eraseDups_concat, hparcels]
  rcases hn with rfl | rfl
  · have hnew : p ∉ image.parcels.take n := by
      intro hmem
      have hlt := Firmware.fst_lt_of_mem_take hsize hmem
      obtain ⟨hj, -⟩ := List.getElem?_eq_some_iff.mp hp
      rw [Firmware.length_parcels] at hj
      rw [Firmware.getElem?_parcels hj] at hp
      rw [← (Prod.mk.inj (Option.some.inj hp)).1] at hlt
      exact absurd hlt (Nat.lt_irrefl _)
    rw [if_neg (mt hlisted.mp hnew), List.take_add_one, hp, Option.toList_some]
  · have hold : p ∈ image.parcels.take (k + 1) := by
      refine List.mem_of_getElem? (i := k) ?_
      rw [List.getElem?_take_of_lt (Nat.lt_succ_self k), hp]
    rw [if_pos (hlisted.mpr hold), List.append_nil]

/-- A frame has gone in the queue. -/
theorem Regular.queue {x : Session.Exchange} (hcut : image.WellCut)
    (hs : l.post.session.Steady board image limit)
    (hoffset : l.post.session.cursor.offset
      = min (l.post.session.chunksSent.toNat * image.chunkSize) image.bytes.size)
    (h : l.Regular board image) (hphase : l.post.session.phase = .placing x)
    (hsent : b.sent = l.sent ++ [(l.post.session.cursor.offset, x.frame)])
    (hchunks : b.post.session.chunksSent = l.post.session.chunksSent)
    (htried : ∀ t, b.post.session.phase.tried? = some t →
      t = decide (x.purpose ≠ .request)) : b.Regular board image := by
  have hfits := hs.sound.phase
  rw [hphase, hs.sound.board, hs.sound.image] at hfits
  have hasked := h.asked
  rw [hphase] at hasked
  obtain ⟨n, hparcels, hle, hmost, hn⟩ := h.parcels
  have hn := hn x.again (by rw [hphase]; rfl)
  refine ⟨?_, fun _ => by simp [hsent], ?_⟩
  · intro entry hentry
    rw [hsent] at hentry
    cases hlog : l.sent with
    | cons opening rest =>
        rw [hlog] at hentry
        exact h.first entry (by rw [hlog]; exact hentry)
    | nil =>
        rw [hlog] at hentry
        obtain rfl := Option.some.inj hentry
        exact hfits.request (Decidable.not_not.mp fun hchunk => hasked hchunk hlog)
  · rw [parcels_of_append hsent, hchunks, parcel]
    cases hpurpose : x.purpose with
    | request =>
        have hplain : ¬ x.frame.type = .programData := by
          rw [(hfits.request hpurpose).type]
          decide
        have hfirst : x.again = false := by rw [Session.Exchange.again, hpurpose]
        rw [if_neg hplain, List.append_nil]
        refine ⟨n, hparcels, hle, hmost, fun t ht => ?_⟩
        rw [htried t ht, hpurpose, hn, hfirst]
        rfl
    | chunk refusals =>
        obtain ⟨hnext, hparcel⟩ := parcel_of_chunk hcut hs hoffset (hfits.chunk hpurpose)
        rw [if_pos (hfits.chunk hpurpose).type]
        refine ⟨l.post.session.chunksSent.toNat + 1, ?_, Nat.le_succ _, hnext, fun t ht => ?_⟩
        · refine eraseDups_of_parcel hcut.size_pos hparcels hparcel ?_
          cases hagain : x.again with
          | true => exact .inr (by rw [hn, hagain, Bool.toNat_true])
          | false => exact .inl (by rw [hn, hagain, Bool.toNat_false, Nat.add_zero])
        · rw [htried t ht, hpurpose]
          rfl

theorem Regular.step (hcut : image.WellCut) (hs : l.post.session.Steady board image limit)
    (hoffset : l.post.session.cursor.offset
      = min (l.post.session.chunksSent.toNat * image.chunkSize) image.bytes.size)
    (h : l.Regular board image) (now : Instant) : (l.apply (.step now)).Regular board image := by
  have hcourse := Session.step_course now l.post.session l.post.mailbox
  have hasked (hphase : (l.apply (.step now)).post.session.phase.Asked) :
      (l.apply (.step now)).sent ≠ [] := by
    rcases hcourse.asked hphase with hbefore | ⟨x, outbound, -, hsent, houtbound⟩
    · exact List.append_ne_nil_of_left_ne_nil (h.asked hbefore) _
    · obtain ⟨-, -, rfl⟩ := Queue.trySend_eq_ok_iff.mp hsent
      have hitems : (l.post.apply (.step now)).mailbox.outbound.items
          = l.post.mailbox.outbound.items ++ [x.frame] := congrArg Queue.items houtbound
      rw [sent_of_append hitems]
      exact List.concat_ne_nil _ _
  have hpost : (l.apply (.step now)).post.session
      = (l.post.session.step now l.post.mailbox).session := rfl
  cases hcourse.tally hcut hs with
  | nothing cursor bytesSent chunksSent retransmissions outbound unheard tried down =>
      exact h.same (sent_of_same outbound) chunksSent hasked tried
  | queue x retransmissions phase count session outbound =>
      refine h.queue hcut hs hoffset phase (sent_of_append outbound) (by rw [hpost, session]) ?_
      intro t ht
      rw [hpost, session] at ht
      exact (Option.some.inj ht).symm
  | overflow x phase again most session outbound =>
      refine h.queue hcut hs hoffset phase (sent_of_append outbound) (by rw [hpost, session]) ?_
      intro t ht
      rw [hpost, session] at ht
      cases ht
  | hear x refusals chunksSent phase purpose heard count session outbound =>
      have hsent := sent_of_same outbound
      obtain ⟨n, hparcels, hle, hmost, hn⟩ := h.parcels
      have hn := hn true (by rw [phase, Session.Phase.tried?, purpose]; rfl)
      refine ⟨by rw [hsent]; exact h.first, hasked, n, ?_, ?_, hmost, ?_⟩
      · rw [Logbook.parcels, hsent]
        exact hparcels
      · rw [hpost, session, count, hn, Bool.toNat_true]
      · intro t ht
        rw [hpost, session] at ht ⊢
        obtain rfl := Option.some.inj ht
        rw [count, hn]
        rfl

theorem Regular.apply (hcut : image.WellCut) (hs : l.post.session.Steady board image limit)
    (hoffset : l.post.session.cursor.offset
      = min (l.post.session.chunksSent.toNat * image.chunkSize) image.bytes.size)
    (h : l.Regular board image) (e : Post.Event) : (l.apply e).Regular board image := by
  cases e with
  | step now => exact h.step hcut hs hoffset now
  | move change => exact h.same rfl rfl h.asked fun t ht => ht
  | kill =>
      have hpost : (l.apply .kill).post = l.post.apply .kill := rfl
      cases hover : l.post.session.isOver with
      | true =>
          refine h.same rfl ?_ ?_ ?_ <;> rw [hpost, Post.apply_kill_of_over hover]
          · exact h.asked
          · exact fun t ht => ht
      | false =>
          refine h.same rfl ?_ ?_ ?_ <;> rw [hpost, Post.apply_kill_of_live hover]
          · rfl
          · exact fun hasked => hasked.elim
          · exact nofun

theorem start_regular (board : UInt8) (image : Firmware) (settings : Settings)
    (mailbox : Mailbox) : (start board image settings mailbox).Regular board image where
  first := nofun
  asked := fun hasked => hasked.elim
  parcels := by
    refine ⟨0, rfl, Nat.le_refl _, Nat.zero_le _, fun t ht => ?_⟩
    obtain rfl := Option.some.inj ht
    rfl

end

/-! ## What is announced follows -/

/-- The first frame announces the image, and if the session ends well the chunks
that it has sent are what was announced. -/
structure Announced (board : UInt8) (key : List UInt8) (image : Firmware) (l : Logbook) :
    Prop where
  request : ∀ entry, l.sent.head? = some entry → ∃ f, Frame.decode entry.2.encode = .ok f
    ∧ f.type = .programUpdateRequest ∧ f.source = 0 ∧ f.dest = board
    ∧ UpdateRequest.decode? f.payload = some ⟨1, image.chunkCount, image.digest⟩
  /-- The places of chunks that were sent, each of them with one chunk. -/
  follows : ∀ elapsed, l.post.session.phase = .finished none elapsed →
    l.sent ≠ [] ∧ (l.parcels.map Prod.fst).toFinset.card = image.chunkCount.toNat
    ∧ l.parcels.eraseDups.length = image.chunkCount.toNat
    ∧ Hmac.mac (l.parcels.eraseDups.flatMap Prod.snd) key = image.digest

variable {origin : String} {bytes : Array UInt8} {chunkSize : UInt64} {key : List UInt8}
  {image : Firmware}

theorem steady_run (hcut : image.WellCut) (board : UInt8) (settings : Settings)
    (mailbox : Mailbox) (events : List Post.Event) :
    ((start board image settings mailbox).run events).post.session.Steady board image
      settings.maxTransmissions := by
  have hsteady := Audit.steady_run hcut board settings mailbox events
  rw [Audit.post_run] at hsteady
  rw [post_run]
  exact hsteady

theorem regular_run (hbuilt : Firmware.build origin bytes chunkSize key = .ok image)
    (board : UInt8) (settings : Settings) (mailbox : Mailbox) (events : List Post.Event) :
    ((start board image settings mailbox).run events).Regular board image := by
  induction events using List.reverseRecOn with
  | nil => exact start_regular board image settings mailbox
  | append_singleton events e ih =>
      have hcut := Firmware.wellCut_of_build hbuilt
      have hoffset := (Audit.exact_run hbuilt board settings mailbox events).offset
      rw [Audit.post_run] at hoffset
      rw [run, List.foldl_append]
      refine ih.apply hcut (steady_run hcut board settings mailbox events) ?_ e
      rw [post_run]
      exact hoffset

theorem Regular.announced {board : UInt8} {limit : UInt32} {l : Logbook} (hcut : image.WellCut)
    (hdigest : image.digest = Hmac.mac image.bytes.toList key)
    (hs : l.post.session.Steady board image limit) (h : l.Regular board image) :
    l.Announced board key image where
  request := by
    intro entry hentry
    have hrequest := h.first entry hentry
    refine ⟨entry.2, Frame.decode_encode entry.2, hrequest.type, hrequest.source, hrequest.dest, ?_⟩
    rw [hrequest.payload, UpdateRequest.decode?_encode]
    rfl
  follows := by
    intro elapsed hphase
    obtain ⟨n, hparcels, hle, hmost, -⟩ := h.parcels
    have hall : l.parcels.eraseDups = image.parcels := by
      rw [hparcels, List.take_of_length_le]
      rw [Firmware.length_parcels, ← hs.chunksSent_of_finished hcut hphase]
      exact hle
    refine ⟨h.asked (by rw [hphase]; rfl), ?_, by rw [hall, Firmware.length_parcels], ?_⟩
    · have hplaces : (l.parcels.map Prod.fst).toFinset = (image.parcels.map Prod.fst).toFinset := by
        ext place
        simp only [← hall, List.mem_toFinset, List.mem_map, List.mem_eraseDups]
      have hdistinct : (image.parcels.map Prod.fst).Nodup := by
        rw [Firmware.map_fst_parcels]
        exact List.nodup_range.map fun i j hij => Nat.eq_of_mul_eq_mul_right hcut.size_pos hij
      rw [hplaces, List.toFinset_card_of_nodup hdistinct, List.length_map, Firmware.length_parcels]
    · rw [hall, List.flatMap_def, Firmware.map_snd_parcels, hcut.flatten_chunks, hdigest]

/-- The request of a session announces the transfer that follows, in a form that
the board reads back, and with a digest that depends on nothing but the image
and the key. -/
theorem announced_transfer_follows :
    (∀ r : UpdateRequest, UpdateRequest.decode? r.encode = some r)
    ∧ (∀ raw r, UpdateRequest.decode? raw = some r → r.encode = raw)
    ∧ (∀ raw, (∃ r, UpdateRequest.decode? raw = some r) ↔ raw.length = 40)
    ∧ ∀ (origin : String) (bytes : Array UInt8) (chunkSize : UInt64) (key : List UInt8)
      (image : Firmware), Firmware.build origin bytes chunkSize key = .ok image →
      image.digest = Hmac.mac bytes.toList key
      ∧ ∀ (board : UInt8) (settings : Settings) (mailbox : Mailbox) (events : List Post.Event),
        ((start board image settings mailbox).run events).Announced board key image := by
  refine ⟨UpdateRequest.decode?_encode, fun _ _ => UpdateRequest.encode_of_decode?,
    fun _ => UpdateRequest.exists_decode?_iff, ?_⟩
  intro origin bytes chunkSize key image hbuilt
  have hcut := Firmware.wellCut_of_build hbuilt
  obtain ⟨hbytes, hdigest⟩ : image.bytes = bytes ∧ image.digest = Hmac.mac bytes.toList key := by
    obtain ⟨count, -, -, -, -, -, rfl⟩ := Firmware.build_eq_ok hbuilt
    exact ⟨rfl, rfl⟩
  refine ⟨hdigest, fun board settings mailbox events => ?_⟩
  exact (regular_run hbuilt board settings mailbox events).announced hcut (hbytes ▸ hdigest)
    (steady_run hcut board settings mailbox events)

/-- The board takes the request, refuses the first chunk once and takes the rest. -/
def refusedOnce : List Post.Event :=
  let steps (n : Nat) : List Post.Event := List.replicate n (.step .origin)
  let comes (type : FrameType) : List Post.Event :=
    [.move (.collect 1), .move (.deliver (.empty type 7 hostId))]
  steps 7 ++ comes .ack ++ steps 9 ++ comes .nack ++ steps 7 ++ comes .ack ++ steps 9
    ++ comes .ack ++ steps 5

theorem announced_with_one_refusal :
    let image : Firmware := ⟨#[1, 2, 3], Hmac.mac [1, 2, 3] [], 2, 2⟩
    let l := (start 7 image {} (.ofCapacity 1)).run refusedOnce
    l.post.session.phase = .finished none .zero
    ∧ l.sent.map (fun entry => (entry.1, entry.2.type))
      = [(0, .programUpdateRequest), (0, .programData), (0, .programData), (2, .programData)]
    ∧ l.Announced 7 [] image ∧ l.parcels.eraseDups.length = 2
    ∧ Hmac.mac (l.parcels.eraseDups.flatMap Prod.snd) [] = image.digest := by
  intro image l
  have hfinished : l.post.session.phase = .finished none .zero := by decide +kernel
  have hannounced : l.Announced 7 [] image :=
    (announced_transfer_follows.2.2.2 "firmware" #[1, 2, 3] 2 [] image rfl).2 7 {} (.ofCapacity 1)
      refusedOnce
  obtain ⟨-, -, hcount, hdigest⟩ := hannounced.follows .zero hfinished
  exact ⟨hfinished, by decide +kernel, hannounced, hcount, hdigest⟩

end Logbook

end BoardFlash
