import BoardFlash.Proofs.Bridge.Line
import BoardFlash.Proofs.Progress
import Mathlib.Data.Prod.Lex

/-!
# The bridge recovers the frames that were sent

When frames come in, one after the other and in any portions, the pieces
that the bridge makes of the bytes are these frames, as far as they go
(`Feeds.stored`). That they go all the way is a matter of time. A run is
`Fair` if the bridge goes on with its steps and finds room in its queue
again and again. Room does not go away before the next frame is stored,
and until then each step brings the bridge nearer to it (`rank_step`):
what it writes gets shorter, or it goes on in its loop, or it reads some
of what is ready. So the next frame is stored in the end
(`Feeds.exists_more`), and by induction all of them are
(`Feeds.eventually_stored`).

`frames_recovered` is the main result.
-/

namespace BoardFlash

namespace Bridge

namespace Line

/-! ## Frames come in -/

/-- Everybody goes on: the bridge makes one step after the other, of which some
are not interrupted, and there is room in its queue again and again. -/
structure Fair (l : Line) (acts : ℕ → Act) : Prop where
  keeps : ∀ n, (acts n).keeps = true
  steps : ∀ n, ∃ m, n ≤ m ∧ ∃ k, acts m = .step (some k)
  room : ∀ n, ∃ m, n ≤ m ∧ (l.after acts m).trunk.queues.back.isFull = false

/-- From this time on frames come in. The bridge has dealt with all that came in
before, and no read gives up any more. -/
structure Feeds (l : Line) (acts : ℕ → Act) (start : ℕ) (fs : List Frame) : Prop where
  settled : (l.after acts start).pending = []
  patient : ∀ n, start ≤ n → ∀ cause, acts n ≠ .giveUp cause
  arrives : ∃ n, ∀ m, n ≤ m → arrived acts m = arrived acts start ++ fs.flatMap Frame.encode

section

variable {old : List (List UInt8)} {l : Line} {acts : ℕ → Act} {start : ℕ} {fs : List Frame}

/-- Some of the frames are queued, and the rest of them is what the bridge holds,
what is ready and what is still to come. -/
theorem Feeds.stored (h : Feeds l acts start fs) (hsound : Sound old l) (hfair : Fair l acts)
    {n : ℕ} (hn : start ≤ n) :
    ∃ done todo coming, fs = done ++ todo
      ∧ (l.after acts n).pieces = (l.after acts start).pieces ++ done.map (.queued ·.encode)
      ∧ (l.after acts n).pending ++ coming = todo.flatMap Frame.encode
      ∧ arrived acts n ++ coming = arrived acts start ++ fs.flatMap Frame.encode := by
  obtain ⟨new, hnew, hcut⟩ :=
    pieces_since hsound hfair.keeps hn fun k hk _ => h.patient k hk
  obtain ⟨coming, hcoming⟩ : arrived acts n
      <+: arrived acts start ++ fs.flatMap Frame.encode := by
    obtain ⟨last, hlast⟩ := h.arrives
    rw [← hlast (max n last) (Nat.le_max_right _ _)]
    exact arrived_grow acts (Nat.le_max_left _ _)
  have hthen := hsound.stream hfair.keeps start
  have hnow := hsound.stream hfair.keeps n
  rw [h.settled, List.append_nil] at hthen
  rw [hnew, List.flatMap_append] at hnow
  -- The pieces from before `start` are all that had come in by then, so that they cancel.
  have hstream : new.flatMap Piece.bytes ++ ((l.after acts n).pending ++ coming)
      = fs.flatMap Frame.encode := by
    have hboth : (l.after acts start).pieces.flatMap Piece.bytes
        ++ (new.flatMap Piece.bytes ++ ((l.after acts n).pending ++ coming))
        = (l.after acts start).pieces.flatMap Piece.bytes ++ fs.flatMap Frame.encode := by
      rw [← List.append_assoc, ← List.append_assoc, hnow, List.append_assoc, hcoming, hthen,
        List.append_assoc _ _ (fs.flatMap Frame.encode)]
    exact List.append_cancel_left hboth
  have hproper : ∀ piece ∈ new, piece.Proper := fun piece hpiece =>
    (hsound.after hfair.keeps n).accounted.proper piece
      (hnew ▸ List.mem_append_right _ hpiece)
  obtain ⟨done, todo, hfs, rfl, hrest⟩ := frames_of_pieces hproper hcut hstream
  exact ⟨done, todo, coming, hfs, hnew, hrest, hcoming⟩

end

/-! ## What comes about in the end -/

/-- How far the bridge is from storing the next frame, with room for it and
`ready` bytes ready: it reads, it goes round its loop, or it writes first. -/
def rankOf (ready : ℕ) : Phase → ℕ ×ₗ ℕ
  | .storing _ => toLex (0, 0)
  | .reading .. => toLex (0, ready + 1)
  | .polling => toLex (0, ready + 2)
  | .checking => toLex (0, ready + 3)
  | .resting => toLex (0, ready + 4)
  | .starting | .flushing => toLex (0, ready + 5)
  | .writing rest => toLex (1, rest.length)
  | .fetching => toLex (2, 0)
  | .failing _ | .alarming _ | .stopping _ | .stopped _ => toLex (0, 0)

def rank (l : Line) : ℕ ×ₗ ℕ := rankOf l.ready.length l.bridge.phase

section

variable {old : List (List UInt8)} {l : Line} {portion : Option ℕ}

theorem toLex_add_lt (c ready : ℕ) {m n : ℕ} (hlt : m < n) :
    toLex (c, ready + m) < toLex (c, ready + n) :=
  Prod.Lex.toLex_lt_toLex.mpr (.inr ⟨rfl, Nat.add_lt_add_left hlt ready⟩)

theorem rankOf_toWrite_le (ready : ℕ) (rest : List UInt8) :
    rankOf ready (.toWrite rest) ≤ toLex (1, rest.length) := by
  cases rest with
  | nil => exact (Prod.Lex.toLex_lt_toLex.mpr (.inl Nat.zero_lt_one)).le
  | cons b bs => exact le_rfl

/-- Without reading the bridge leaves what is ready. -/
theorem rank_serve {link : Link} {phase : Phase}
    (hreading : ∀ got missing, l.bridge.phase ≠ .reading got missing)
    (hphase : (l.bridge.step l.trunk link).bridge.phase = phase) :
    (l.serve link).rank = rankOf l.ready.length phase := by
  have hready : (l.serve link).ready = l.ready := by
    rw [serve, (silent_of_not_reading hreading .starting).1]
    rfl
  rw [rank, hready, ← hphase]
  rfl

/-- The bridge goes from one phase to another that is nearer to the next frame. -/
theorem rank_lt {link : Link} {phase : Phase} (phase' : Phase) (hp : l.bridge.phase = phase)
    (hreading : ∀ got missing, phase ≠ .reading got missing)
    (hphase : (l.bridge.step l.trunk link).bridge.phase = phase')
    (hlt : rankOf l.ready.length phase' < rankOf l.ready.length phase) :
    (l.serve link).rank < l.rank := by
  rw [← hp] at hreading
  rw [rank_serve hreading hphase, rank, hp]
  exact hlt

theorem apply_step_of_ready (hready : l.starved = false) (portion : Option ℕ) :
    l.apply (.step portion) = l.serve (.offering l.ready portion) := by
  rw [Line.apply, hready]
  rfl

theorem not_starved_of_not_reading
    (hreading : ∀ got missing, l.bridge.phase ≠ .reading got missing) : l.starved = false := by
  rw [Bool.eq_false_iff]
  intro hstarved
  obtain ⟨got, missing, hp, -⟩ := starved_iff.mp hstarved
  exact hreading got missing hp

/-- Once a whole stream has come in no read waits for a byte. -/
theorem not_starved_of_whole (h : Sound old l)
    (hwhole : Frame.Whole (l.pending))
    (hmore : l.pending ≠ []) : l.starved = false := by
  rw [Bool.eq_false_iff]
  intro hstarved
  obtain ⟨got, missing, hp, hready⟩ := starved_iff.mp hstarved
  have hmeasured := h.accounted.measured
  rw [pending, hready, hp] at hwhole hmore
  rw [hp] at hmeasured
  rw [Phase.held] at hwhole hmore
  obtain ⟨f, rest, hencode, -⟩ := hwhole.exists_encode hmore
  have hlen := congrArg List.length hencode
  rw [List.length_append, List.length_append, List.length_nil, Frame.length_encode,
    Frame.encodedLength] at hlen
  obtain ⟨hpos, hfirst | ⟨hgot, hrem⟩⟩ := hmeasured
  · omega
  · obtain ⟨g, rest', hencode', hrem'⟩ := hwhole.exists_prefix hgot
    have hsame := Frame.split?_encode_append f rest
    rw [← hencode, hencode', Frame.split?_encode_append] at hsame
    obtain ⟨rfl, -⟩ := Prod.mk.inj (Option.some.inj hsame)
    have hsame' := Option.some.inj (hrem.symm.trans hrem')
    omega

/-- As long as there is something to read the bridge reads some of it, unless it is
interrupted, or adds to the pieces. -/
theorem rank_of_reading (h : Sound old l) {got : List UInt8} {missing : ℕ}
    (hp : l.bridge.phase = .reading got missing) (hready : l.ready ≠ []) (portion : Option ℕ) :
    let l' := l.serve (.offering l.ready portion)
    l.pieces.length < l'.pieces.length ∨ l'.rank < l.rank ∨ portion = none ∧ l'.rank = l.rank := by
  intro l'
  cases portion with
  | none =>
      have hphase : l'.bridge.phase = .reading got missing := by
        show (l.bridge.step l.trunk _).bridge.phase = _
        rw [step, hp]
        rfl
      have hready' : l'.ready = l.ready := by
        show l.ready.drop _ = _
        rw [call?, hp]
        rfl
      exact .inr (.inr ⟨rfl, by rw [rank, rank, hphase, hready', hp]⟩)
  | some n =>
      have hmeasured := h.accounted.measured
      rw [hp] at hmeasured
      have hpos := hmeasured.1
      let bytes : (Link.Call.read missing).Result :=
        ⟨l.ready.take (min (n + 1) missing), Link.length_take_le_most l.ready (n + 1) missing⟩
      have hreply : Link.offering l.ready (some n) (.read missing) = .ok bytes := rfl
      have hsome : bytes.val ≠ [] := by
        intro hnil
        rcases List.take_eq_nil_iff.mp hnil with hzero | hnil
        · omega
        · exact hready hnil
      have hready' : l'.ready.length < l.ready.length := by
        show (l.ready.drop _).length < _
        have hread := List.length_pos_iff.mpr hsome
        have hmore := List.length_pos_iff.mpr hready
        rw [received_of_reading hp hreply, List.length_drop]
        omega
      have hstep : l.bridge.step l.trunk (.offering l.ready (some n))
          = if missing ≤ bytes.val.length then complete l.trunk (got ++ bytes.val)
            else goTo l.trunk (.reading (got ++ bytes.val) (missing - bytes.val.length)) := by
        rw [step, hp]
        exact afterRead_ok l.trunk got missing hsome
      have hfewer : toLex (0, l'.ready.length + 1) < l.rank := by
        rw [rank, hp]
        exact Prod.Lex.toLex_lt_toLex.mpr (.inr ⟨rfl, Nat.succ_lt_succ hready'⟩)
      split at hstep
      · unfold complete at hstep
        split at hstep
        · split at hstep
          · have hphase : l'.bridge.phase = .reading _ _ := congrArg (·.bridge.phase) hstep
            right; left
            rwa [rank, hphase]
          · have hphase : l'.bridge.phase = .fetching := congrArg (·.bridge.phase) hstep
            left
            show _ < (l.pieces ++ (_ ++ dropped _ l.bridge.phase l'.bridge.phase)).length
            rw [hp, hphase, dropped, hreply]
            simp
        · have hphase : l'.bridge.phase = .storing _ := congrArg (·.bridge.phase) hstep
          right; left
          rw [rank, hphase]
          refine lt_trans ?_ hfewer
          exact Prod.Lex.toLex_lt_toLex.mpr (.inr ⟨rfl, Nat.succ_pos _⟩)
      · have hphase : l'.bridge.phase = .reading _ _ := congrArg (·.bridge.phase) hstep
        right; left
        rwa [rank, hphase]

theorem rank_of_writing {rest : List UInt8} (hp : l.bridge.phase = .writing rest)
    (hrest : rest ≠ []) (portion : Option ℕ) :
    let l' := l.serve (.offering l.ready portion)
    l'.rank < l.rank ∨ portion = none ∧ l'.rank = l.rank := by
  intro l'
  have hreading : ∀ got missing, l.bridge.phase ≠ .reading got missing := by simp [hp]
  have hrank : l.rank = toLex (1, rest.length) := by rw [rank, hp]; rfl
  cases portion with
  | none =>
      have hphase : (l.bridge.step l.trunk (.offering l.ready none)).bridge.phase = .writing rest := by
        rw [step, hp]
        rfl
      exact .inr ⟨rfl, (rank_serve hreading hphase).trans hrank.symm⟩
  | some n =>
      have hpos := List.length_pos_iff.mpr hrest
      have hphase : (l.bridge.step l.trunk (.offering l.ready (some n))).bridge.phase
          = .toWrite (rest.drop (min (n + 1) rest.length)) := by
        rw [step, hp]
        show (afterWrite l.trunk rest (.ok (min (n + 1) rest.length))).bridge.phase = _
        rw [afterWrite_ok l.trunk rest (by omega)]
        rfl
      left
      rw [rank_serve hreading hphase, hrank]
      refine (rankOf_toWrite_le _ _).trans_lt (Prod.Lex.toLex_lt_toLex.mpr (.inr ⟨rfl, ?_⟩))
      dsimp only
      rw [List.length_drop]
      omega

theorem rank_of_fetching (hp : l.bridge.phase = .fetching) (portion : Option ℕ) :
    (l.serve (.offering l.ready portion)).rank < l.rank := by
  have hreading : ∀ got missing, l.bridge.phase ≠ .reading got missing := by simp [hp]
  have hrank : l.rank = toLex (2, 0) := by rw [rank, hp]; rfl
  rw [hrank]
  cases htaken : l.trunk.queues.forth.tryRecv with
  | ok out =>
      have hphase : (l.bridge.step l.trunk (.offering l.ready portion)).bridge.phase
          = .toWrite out.1 := by
        rw [step, hp]
        simp only [fetch, htaken]
        rfl
      rw [rank_serve hreading hphase]
      exact (rankOf_toWrite_le _ _).trans_lt (Prod.Lex.toLex_lt_toLex.mpr (.inl Nat.one_lt_two))
  | error why =>
      have hidle : (l.bridge.step l.trunk (.offering l.ready portion)).bridge.phase
          = .resting ∨ (l.bridge.step l.trunk (.offering l.ready portion)).bridge.phase
          = .stopping none := by
        rw [step, hp]
        cases why with
        | empty => exact .inl (by simp only [fetch, htaken]; rfl)
        | disconnected => exact .inr (by simp only [fetch, htaken]; rfl)
      rcases hidle with hphase | hphase <;> rw [rank_serve hreading hphase] <;>
        exact Prod.Lex.toLex_lt_toLex.mpr (.inl Nat.zero_lt_two)

/-- A complete frame adds to the pieces. -/
theorem pieces_of_storing (h : Sound old l) {raw : List UInt8}
    (hp : l.bridge.phase = .storing raw) (link : Link) :
    l.pieces.length < (l.serve link).pieces.length := by
  show _ < (l.toIntake.apply _).pieces.length
  rw [h.accounted.pieces_of_storing hp]
  simp

/-- With room in its queue and a frame to read the bridge comes nearer to storing it with
each step that is not interrupted. -/
theorem rank_step (h : Sound old l) (hroom : l.trunk.queues.back.isFull = false)
    (hwhole : Frame.Whole (l.pending))
    (hmore : l.pending ≠ []) (portion : Option ℕ) :
    let l' := l.apply (.step portion)
    l.pieces.length < l'.pieces.length ∨ l'.rank < l.rank ∨ portion = none ∧ l'.rank = l.rank := by
  have hready := not_starved_of_whole h hwhole hmore
  dsimp only
  rw [apply_step_of_ready hready]
  have hwork := h.atWork
  cases hp : l.bridge.phase with
  | reading got missing =>
      refine rank_of_reading h hp (fun hnil => ?_) portion
      rw [starved_iff.mpr ⟨got, missing, hp, hnil⟩] at hready
      cases hready
  | storing raw =>
      left
      exact pieces_of_storing h hp _
  | writing rest =>
      rw [hp] at hwork
      exact .inr (rank_of_writing hp hwork portion)
  | fetching => exact .inr (.inl (rank_of_fetching hp portion))
  | starting | flushing =>
      refine .inr (.inl (rank_lt .resting hp (by simp) ?_ (toLex_add_lt 0 _ (by decide))))
      rw [step, hp]
      rfl
  | resting =>
      exact .inr (.inl (rank_lt .checking hp (by simp) (step_resting hp h.going _)
        (toLex_add_lt 0 _ (by decide))))
  | checking =>
      exact .inr (.inl (rank_lt .polling hp (by simp) (step_checking hp hroom _)
        (toLex_add_lt 0 _ (by decide))))
  | polling =>
      rw [pending, hp] at hwhole hmore
      obtain ⟨f, rest, hencode, -⟩ : ∃ (f : Frame) (rest : List UInt8),
          l.ready = f.encode ++ rest ∧ Frame.Whole rest := hwhole.exists_encode hmore
      have henough : Frame.headerLength ≤ l.ready.length := by
        have hlen := f.headerLength_lt_length_encode
        rw [hencode, List.length_append]
        omega
      exact .inr (.inl (rank_lt (.reading [] Frame.headerLength) hp (by simp)
        (step_polling hp henough portion) (toLex_add_lt 0 _ (by decide))))
  | failing | alarming | stopping | stopped =>
      rw [hp] at hwork
      exact hwork.elim

end

section

variable {old : List (List UInt8)} {l : Line} {acts : ℕ → Act} {start : ℕ} {fs : List Frame}

theorem room_serve (h : Sound old l) (link : Link) (hroom : l.trunk.queues.back.isFull = false) :
    l.pieces.length < (l.serve link).pieces.length
      ∨ (l.serve link).trunk.queues.back.isFull = false := by
  by_cases hstoring : ∃ raw, l.bridge.phase = .storing raw
  · obtain ⟨raw, hp⟩ := hstoring
    exact .inl (pieces_of_storing h hp link)
  · have hsame := back_of_passage (step_passage l.bridge l.trunk link) (not_exists.mp hstoring)
    exact .inr (hsame.2.trans hroom)

/-- Only a new piece takes up the room in the queue. -/
theorem Event.room (e : Event l act l') (h : Sound old l) (hkeeps : act.keeps = true)
    (hroom : l.trunk.queues.back.isFull = false) :
    l.pieces.length < l'.pieces.length ∨ l'.trunk.queues.back.isFull = false := by
  cases e with
  | serve | giveUp => exact room_serve h _ hroom
  | wait | arrive => exact .inr hroom
  | move move =>
      have hmove : move ≠ .stopCollecting := by
        rintro rfl
        cases hkeeps
      obtain ⟨n, hback⟩ := l.trunk.back_apply hmove
      right
      show (l.trunk.apply move).queues.back.isFull = false
      simp only [hback, Queue.isFull, List.length_drop, decide_eq_false_iff_not] at hroom ⊢
      omega

/-- Once all of the frames have come in nothing else does. -/
theorem Feeds.arrived_eq (h : Feeds l acts start fs) {m n : ℕ}
    (hall : arrived acts m = arrived acts start ++ fs.flatMap Frame.encode) (hle : m ≤ n) :
    arrived acts n = arrived acts start ++ fs.flatMap Frame.encode := by
  obtain ⟨last, hlast⟩ := h.arrives
  have hlate := (hlast (max n last) (Nat.le_max_right _ _)).trans hall.symm
  exact (arrived_between hlate hle (Nat.le_max_left _ _)).trans hall

/-- `k` of the frames are stored. All the others have come in, and there is room for
the next of them. -/
structure Awaits (l : Line) (acts : ℕ → Act) (start : ℕ) (fs : List Frame) (k n : ℕ) : Prop where
  late : start ≤ n
  all : arrived acts n = arrived acts start ++ fs.flatMap Frame.encode
  room : (l.after acts n).trunk.queues.back.isFull = false
  stored : (l.after acts n).pieces.length = (l.after acts start).pieces.length + k

variable {k n : ℕ}

theorem Awaits.pending (h : Feeds l acts start fs) (hsound : Sound old l) (hfair : Fair l acts)
    (hk : k < fs.length) (hn : Awaits l acts start fs k n) :
    Frame.Whole (l.after acts n).pending ∧ (l.after acts n).pending ≠ [] := by
  obtain ⟨done, todo, coming, rfl, hpieces, hpending, hcoming⟩ := h.stored hsound hfair hn.late
  obtain rfl : coming = [] := by
    rw [hn.all] at hcoming
    exact List.append_right_eq_self.mp hcoming
  rw [List.append_nil] at hpending
  refine ⟨⟨todo, hpending⟩, fun hnil => ?_⟩
  have hstored := hn.stored
  rw [hpieces, List.length_append, List.length_map] at hstored
  rw [List.length_append] at hk
  cases todo with
  | nil =>
      rw [List.length_nil] at hk
      omega
  | cons f todo =>
      rw [hnil, List.flatMap_cons] at hpending
      have hlen := f.headerLength_lt_length_encode
      rw [(List.append_eq_nil_iff.mp hpending.symm).1] at hlen
      exact absurd hlen (Nat.not_lt_zero _)

/-- Each act stores the next frame, or the bridge comes nearer to it, or at least it does
not get farther away. -/
theorem Awaits.next (h : Feeds l acts start fs) (hsound : Sound old l) (hfair : Fair l acts)
    (hk : k < fs.length) (hn : Awaits l acts start fs k n) :
    (l.after acts start).pieces.length + k < (l.after acts (n + 1)).pieces.length
      ∨ Awaits l acts start fs k (n + 1)
        ∧ ((l.after acts (n + 1)).rank < (l.after acts n).rank
          ∨ (∀ j, acts n ≠ .step (some j))
            ∧ (l.after acts (n + 1)).rank = (l.after acts n).rank) := by
  obtain ⟨hwhole, hmore⟩ := hn.pending h hsound hfair hk
  have hsound' := hsound.after hfair.keeps n
  have hall := h.arrived_eq hn.all (Nat.le_succ n)
  have hnone : (acts n).bytes = [] :=
    no_bytes_of_arrived (hall.trans hn.all.symm) le_rfl (Nat.lt_succ_self n)
  rw [← hn.stored]
  rcases Nat.lt_or_eq_of_le (pieces_grow l acts (Nat.le_succ n)).length_le with hdone | hsame
  · exact .inl hdone
  right
  refine ⟨⟨Nat.le_succ_of_le hn.late, hall, ?_, hsame.symm.trans hn.stored⟩, ?_⟩
  · exact ((apply_event _ _).room hsound' (hfair.keeps n) hn.room).resolve_left
      (Nat.lt_irrefl _ <| hsame ▸ ·)
  · show ((l.after acts n).apply (acts n)).rank < _
      ∨ _ ∧ ((l.after acts n).apply (acts n)).rank = _
    rw [Line.after] at hsame
    cases hact : acts n with
    | step portion =>
        rw [hact] at hsame
        rcases rank_step hsound' hn.room hwhole hmore portion with hpiece | hless | ⟨rfl, hequal⟩
        · exact absurd hsame (Nat.ne_of_lt hpiece)
        · exact .inl hless
        · exact .inr ⟨by simp, hequal⟩
    | giveUp cause => exact absurd hact (h.patient n hn.late cause)
    | arrive bytes =>
        rw [hact] at hnone
        obtain rfl : bytes = [] := hnone
        refine .inr ⟨by simp, ?_⟩
        rw [Line.apply, List.append_nil]
    | move move => exact .inr ⟨by simp, rfl⟩

/-- The next of the frames is stored in the end. -/
theorem Feeds.exists_more (h : Feeds l acts start fs) (hsound : Sound old l) (hfair : Fair l acts)
    (hn : start ≤ n) (hall : arrived acts n = arrived acts start ++ fs.flatMap Frame.encode)
    (hk : k < fs.length)
    (hstored : (l.after acts start).pieces.length + k ≤ (l.after acts n).pieces.length) :
    ∃ m, n ≤ m ∧ (l.after acts start).pieces.length + k < (l.after acts m).pieces.length := by
  obtain ⟨r, hr, hroom⟩ := hfair.room n
  rcases Nat.lt_or_eq_of_le (hstored.trans (pieces_grow l acts hr).length_le) with hdone | hsame
  · exact ⟨r, hr, hdone⟩
  have hwaits : Awaits l acts start fs k r := ⟨hn.trans hr, h.arrived_eq hall hr, hroom, hsame.symm⟩
  refine (exists_of_rank (Awaits l acts start fs k)
    (fun m => (l.after acts start).pieces.length + k < (l.after acts m).pieces.length)
    (fun m => (l.after acts m).rank) hfair.steps (fun m hm => ?_) (fun m hm hact => ?_) hwaits).imp
    fun m hm => ⟨hr.trans hm.1, hm.2⟩
  · rcases hm.next h hsound hfair hk with hdone | ⟨hwaits, hless | ⟨-, hequal⟩⟩
    · exact .inl hdone
    · exact .inr ⟨hwaits, hless.le⟩
    · exact .inr ⟨hwaits, hequal.le⟩
  · obtain ⟨j, hact⟩ := hact
    rcases hm.next h hsound hfair hk with hdone | ⟨-, hless | ⟨hno, -⟩⟩
    · exact .inl hdone
    · exact .inr hless
    · exact absurd hact (hno j)

/-- All the frames are queued in the end, and nothing else becomes of the bytes. -/
theorem Feeds.eventually_stored (h : Feeds l acts start fs) (hsound : Sound old l)
    (hfair : Fair l acts) :
    ∃ n, start ≤ n ∧ ∀ m, n ≤ m → (l.after acts m).pieces
      = (l.after acts start).pieces ++ fs.map (.queued ·.encode) := by
  obtain ⟨last, hlast⟩ := h.arrives
  have hcount : ∀ k, k ≤ fs.length → ∃ n, max start last ≤ n
      ∧ (l.after acts start).pieces.length + k ≤ (l.after acts n).pieces.length := by
    intro k hk
    induction k with
    | zero =>
        exact ⟨_, le_rfl, (pieces_grow l acts (Nat.le_max_left start last)).length_le⟩
    | succ k ih =>
        obtain ⟨n, hn, hstored⟩ := ih (Nat.le_of_succ_le hk)
        obtain ⟨hstart, hend⟩ := Nat.max_le.mp hn
        obtain ⟨m, hm, hmore⟩ := h.exists_more hsound hfair hstart
          (hlast n hend) hk hstored
        exact ⟨m, hn.trans hm, hmore⟩
  obtain ⟨n, hn, hstored⟩ := hcount fs.length le_rfl
  have hstart := (Nat.max_le.mp hn).1
  refine ⟨n, hstart, fun m hm => ?_⟩
  obtain ⟨done, todo, coming, rfl, hpieces, -⟩ := h.stored hsound hfair (hstart.trans hm)
  have hlength := (pieces_grow l acts hm).length_le
  rw [hpieces, List.length_append, List.length_map] at hlength
  rw [List.length_append] at hstored
  obtain rfl : todo = [] := List.length_eq_zero_iff.mp (by omega)
  rw [hpieces, List.append_nil]

/-! ## A router that goes on -/

theorem Event.length_le_capacity (e : Event l act l') (hkeeps : act.keeps = true)
    (hfits : l.trunk.queues.back.items.length ≤ l.trunk.queues.back.capacity) :
    l'.trunk.queues.back.items.length ≤ l.trunk.queues.back.capacity
      ∧ l'.trunk.queues.back.capacity = l.trunk.queues.back.capacity := by
  cases e with
  | serve | giveUp => exact length_le_of_passage (step_passage l.bridge l.trunk _) hfits
  | wait | arrive => exact ⟨hfits, rfl⟩
  | move move =>
      have hmove : move ≠ .stopCollecting := by
        rintro rfl
        cases hkeeps
      obtain ⟨n, hback⟩ := l.trunk.back_apply hmove
      show (l.trunk.apply move).queues.back.items.length ≤ _
        ∧ (l.trunk.apply move).queues.back.capacity = _
      rw [hback]
      refine ⟨?_, rfl⟩
      rw [List.length_drop]
      omega

/-- The queue of received frames is never overfull. -/
theorem length_le_capacity (hkeeps : ∀ n, (acts n).keeps = true)
    (hfits : l.trunk.queues.back.items.length ≤ l.trunk.queues.back.capacity) (n : ℕ) :
    (l.after acts n).trunk.queues.back.items.length ≤ l.trunk.queues.back.capacity
      ∧ (l.after acts n).trunk.queues.back.capacity = l.trunk.queues.back.capacity := by
  induction n with
  | zero => exact ⟨hfits, rfl⟩
  | succ n ih =>
      obtain ⟨hlength, hcapacity⟩ := ih
      rw [← hcapacity] at hlength ⊢
      exact (apply_event _ _).length_le_capacity (hkeeps n) hlength

/-- There is room again and again if the router takes frames again and again. -/
theorem Fair.of_collects (h : Sound old l) (hkeeps : ∀ n, (acts n).keeps = true)
    (hpos : 0 < l.trunk.queues.back.capacity)
    (hfits : l.trunk.queues.back.items.length ≤ l.trunk.queues.back.capacity)
    (hsteps : ∀ n, ∃ m, n ≤ m ∧ ∃ k, acts m = .step (some k))
    (hcollects : ∀ n, ∃ m, n ≤ m ∧ ∃ k, acts m = .move (.collect (k + 1))) : Fair l acts := by
  refine ⟨hkeeps, hsteps, fun n => ?_⟩
  obtain ⟨m, hm, k, hact⟩ := hcollects n
  obtain ⟨hlength, hcapacity⟩ := length_le_capacity hkeeps hfits m
  refine ⟨m + 1, Nat.le_succ_of_le hm, ?_⟩
  have hserved := (h.after hkeeps m).accounted.served
  rw [Line.after, hact]
  show ((l.after acts m).trunk.apply _).queues.back.isFull = false
  simp only [Trunk.apply, hserved, if_true, Queue.take, Queue.isFull, List.length_drop, hcapacity,
    decide_eq_false_iff_not]
  omega

/-- These acts first, and then everybody goes on. -/
def schedule (first : List Act) (n : ℕ) : Act :=
  first[n]?.getD (match n % 3 with
    | 0 => .step none
    | 1 => .step (some 0)
    | _ => .move (.collect 1))

theorem schedule_of_le {first : List Act} {n : ℕ} (hn : first.length ≤ n) :
    schedule first n = match n % 3 with
      | 0 => .step none
      | 1 => .step (some 0)
      | _ => .move (.collect 1) := by
  rw [schedule, List.getElem?_eq_none hn]
  rfl

theorem schedule_keeps {first : List Act} (hfirst : ∀ act ∈ first, act.keeps = true) (n : ℕ) :
    (schedule first n).keeps = true := by
  cases hact : first[n]? with
  | some act =>
      rw [schedule, hact]
      exact hfirst act (List.mem_of_getElem? hact)
  | none =>
      rw [schedule_of_le (List.getElem?_eq_none_iff.mp hact)]
      split <;> rfl

theorem schedule_patient {first : List Act} {n : ℕ} {cause : IoError}
    (hact : schedule first n = .giveUp cause) : first[n]? = some (.giveUp cause) := by
  cases hfirst : first[n]? with
  | some act =>
      rw [schedule, hfirst] at hact
      exact congrArg some hact
  | none =>
      rw [schedule_of_le (List.getElem?_eq_none_iff.mp hfirst)] at hact
      split at hact <;> cases hact

theorem arrived_schedule (first : List Act) (n : ℕ) :
    arrived (schedule first) n = (first.take n).flatMap Act.bytes := by
  induction n with
  | zero => simp [arrived]
  | succ n ih =>
      rw [arrived, ih, List.take_add_one, List.flatMap_append]
      congr 1
      cases hact : first[n]? with
      | some act => simp [schedule, hact]
      | none =>
          rw [schedule_of_le (List.getElem?_eq_none_iff.mp hact)]
          split <;> rfl

/-- A schedule is fair if it starts fairly. -/
theorem fair_schedule (h : Sound old l) {first : List Act}
    (hfirst : ∀ act ∈ first, act.keeps = true) (hpos : 0 < l.trunk.queues.back.capacity)
    (hfits : l.trunk.queues.back.items.length ≤ l.trunk.queues.back.capacity) :
    Fair l (schedule first) := by
  refine .of_collects h (schedule_keeps hfirst) hpos hfits (fun n => ?_) (fun n => ?_)
  · refine ⟨3 * (n + first.length) + 1, by omega, 0, ?_⟩
    rw [schedule_of_le (by omega), Nat.mul_add_mod]
    rfl
  · refine ⟨3 * (n + first.length) + 2, by omega, 0, ?_⟩
    rw [schedule_of_le (by omega), Nat.mul_add_mod]
    rfl

/-! ## The frames that come out -/

theorem queued_of_frames {i : Intake} (hpieces : i.pieces = fs.map (.queued ·.encode)) :
    i.queued = fs.map Frame.encode := by
  have hraw : (Piece.raw? ∘ fun f : Frame => .queued f.encode) = fun f => some f.encode := rfl
  rw [Intake.queued, hpieces, List.filterMap_map, hraw, List.filterMap_eq_map']

/-- The bridge recovers the frames that were sent. The bytes may come in in any
portions, reads may be partial or interrupted, and the queue to the router may be
full at times; as long as no read gives up and there is room again and again, the
frames are queued in their order and nothing else is, and they are read back as
what they were. -/
theorem frames_recovered (fs : List Frame) (trunk : Trunk) (acts : ℕ → Act)
    (hopen : trunk.queues.forth.senderOpen = true ∧ trunk.queues.back.receiverOpen = true)
    (hgoing : trunk.cancelled = false) (hfair : Fair { trunk } acts)
    (hpatient : ∀ n cause, acts n ≠ .giveUp cause)
    (harrives : ∃ n, ∀ m, n ≤ m → arrived acts m = fs.flatMap Frame.encode) :
    let l := after { trunk } acts
    (∀ n, (l n).queued <+: fs.map Frame.encode
      ∧ (l n).taken ++ (l n).trunk.queues.back.items
        = trunk.queues.back.items ++ (l n).queued)
    ∧ ∃ n, ∀ m, n ≤ m → (l m).pieces = fs.map (.queued ·.encode)
      ∧ (l m).queued = fs.map Frame.encode ∧ (l m).queued.map Frame.decode = fs.map .ok := by
  intro l
  have hsound : Sound trunk.queues.back.items { trunk } := .of_rest (.inl rfl) hopen hgoing
  have hfeeds : Feeds { trunk } acts 0 fs := by
    refine ⟨rfl, fun n _ => hpatient n, ?_⟩
    simpa [arrived] using harrives
  refine ⟨fun n => ⟨?_, (hsound.after hfair.keeps n).accounted.queue⟩, ?_⟩
  · obtain ⟨done, todo, -, rfl, hpieces, -⟩ := hfeeds.stored hsound hfair (Nat.zero_le n)
    rw [queued_of_frames hpieces, List.map_append]
    exact List.prefix_append _ _
  · obtain ⟨n, -, hn⟩ := hfeeds.eventually_stored hsound hfair
    refine ⟨n, fun m hm => ⟨hn m hm, queued_of_frames (hn m hm), ?_⟩⟩
    rw [queued_of_frames (hn m hm), List.map_map]
    exact List.map_congr_left fun f _ => Frame.decode_encode f

/-- The second frame has the header of the first one as its payload. The bytes
come in in two portions, of which the first one ends within the second frame, and
the queue has room for one frame. -/
theorem look_alikes_recovered :
    let ack := Frame.empty .ack 3 0
    let cli : Frame := ⟨.cliData, 3, 0, ack.encode.take 5, by decide⟩
    let stream := [ack, cli].flatMap Frame.encode
    let acts := schedule [.arrive (stream.take 8), .step none, .arrive (stream.drop 8)]
    Fair { trunk := .ofCapacity 1 } acts ∧ (∀ n cause, acts n ≠ .giveUp cause)
      ∧ (∃ n, ∀ m, n ≤ m → arrived acts m = [ack, cli].flatMap Frame.encode)
      ∧ ∃ n, ∀ m, n ≤ m →
        (after { trunk := .ofCapacity 1 } acts m).queued.map Frame.decode = [.ok ack, .ok cli] := by
  intro ack cli stream acts
  have hfair : Fair { trunk := .ofCapacity 1 } acts :=
    fair_schedule (.of_rest (.inl rfl) ⟨rfl, rfl⟩ rfl) (by simp [Act.keeps]) Nat.one_pos (Nat.zero_le 1)
  have hpatient : ∀ n cause, acts n ≠ .giveUp cause := by
    intro n cause hact
    simpa using List.mem_of_getElem? (schedule_patient hact)
  have harrives : ∃ n, ∀ m, n ≤ m → arrived acts m = stream := by
    refine ⟨3, fun m hm => (arrived_schedule _ m).trans ?_⟩
    rw [List.take_of_length_le hm]
    simp [Act.bytes]
  obtain ⟨-, n, hn⟩ :=
    frames_recovered [ack, cli] (.ofCapacity 1) acts ⟨rfl, rfl⟩ rfl hfair hpatient harrives
  exact ⟨hfair, hpatient, harrives, n, fun m hm => (hn m hm).2.2⟩

end

end Line

end Bridge

end BoardFlash
