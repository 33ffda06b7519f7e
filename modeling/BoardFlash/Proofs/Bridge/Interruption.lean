import BoardFlash.Proofs.Bridge.Recovery

/-!
# A frame that is cut short

A part of a frame comes in, the link goes quiet, and later the next frame
comes in. How the bridge gets over this depends on where the frame was cut.

Behind the header, the bridge sets out to read the part when it goes round
its loop (`Approaches`), and it cannot turn back before the read gives up
(`Event.approaches`). Then all of the part is `Dropped`, and the bridge is
where it was before the part came in (`Round.dropped`), so that the next
frame is recovered as in `Feeds.eventually_stored`.

Within the header, the bridge does not begin to read (`untouched_of_few`),
so no read can give up. The part stays where it is, for however many rounds,
and is taken for the beginning of the next frame.
-/

namespace BoardFlash

namespace Bridge

/-- The bridge holds nothing that it has read, and it is not about to read. -/
def Phase.handsFree : Phase → Bool
  | .reading .. | .storing _ => false
  | _ => true

theorem handsFree_of_free {phase : Phase} (hfree : phase.free = true) :
    phase.handsFree = true := by
  cases phase with
  | reading | storing => cases hfree
  | _ => rfl

theorem handsFree_toWrite (rest : List UInt8) : (Phase.toWrite rest).handsFree = true := by
  cases rest <;> rfl

theorem held_of_handsFree {phase : Phase} (hidle : phase.handsFree = true) : phase.held = [] := by
  cases phase with
  | reading | storing => cases hidle
  | _ => rfl

/-- The bridge looks for a frame, or it reads one. -/
def Phase.onward : Phase → Bool
  | .checking | .polling | .reading .. => true
  | _ => false

/-- Where a step leads that reads. -/
theorem phase_of_reading {b : Bridge} (t : Trunk) (link : Link) {got : List UInt8} {missing : Nat}
    (hp : b.phase = .reading got missing) :
    (∃ got' missing', (b.step t link).bridge.phase = .reading got' missing')
      ∨ (∃ raw, (b.step t link).bridge.phase = .storing raw)
      ∨ (b.step t link).bridge.phase = .fetching
      ∨ ∃ e, (b.step t link).bridge.phase = .failing e := by
  cases step_passage b t link with
  | read _ _ _ _ _ _ after | header _ _ _ _ _ _ _ _ _ after => exact .inl ⟨_, _, after⟩
  | again _ _ _ _ _ after => exact .inl ⟨_, _, after.trans hp⟩
  | whole _ _ _ _ _ _ _ after => exact .inr (.inl ⟨_, after⟩)
  | garble _ _ _ _ _ _ _ _ after | cut _ _ _ _ _ _ after => exact .inr (.inr (.inl after))
  | fail _ _ _ _ after => exact .inr (.inr (.inr ⟨_, after⟩))
  | quiet before | start _ before | store _ _ before | overflow _ _ before | fetch _ _ before
  | write _ _ before | alarm _ before | raise _ before | release _ before | stopped _ before =>
      rw [hp] at before
      cases before
  | stop before =>
      rw [hp] at before
      obtain ⟨before, -⟩ | ⟨before, -⟩ := before <;> cases before

namespace Line

section

variable {old : List (List UInt8)} {l l' : Line} {act : Act} {acts : ℕ → Act}

/-! ## Too little for a header -/

/-- The bridge does not begin to read before a header is ready. -/
theorem serve_of_few (hfew : l.ready.length < Frame.headerLength)
    (hidle : l.bridge.phase.handsFree = true) (portion : Option ℕ) :
    let l' := l.serve (.offering l.ready portion)
    l'.bridge.phase.handsFree = true ∧ l'.pieces = l.pieces ∧ l'.ready = l.ready := by
  intro l'
  have hreading : ∀ got missing, l.bridge.phase ≠ .reading got missing := by
    intro got missing hp
    rw [hp] at hidle
    cases hidle
  have hstoring : ∀ raw, l.bridge.phase ≠ .storing raw := by
    intro raw hp
    rw [hp] at hidle
    cases hidle
  have hpassage := step_passage l.bridge l.trunk (.offering l.ready portion)
  obtain ⟨hreceived, hdropped⟩ :
      (Link.offering l.ready portion).received l.bridge.call? = []
        ∧ dropped (.offering l.ready portion) l.bridge.phase l'.bridge.phase = [] :=
    silent_of_not_reading hreading _
  refine ⟨?_, ?_, ?_⟩
  · show (l.bridge.step l.trunk (.offering l.ready portion)).bridge.phase.handsFree = true
    cases hpassage with
    | quiet _ after => exact handsFree_of_free after
    | start n _ reply enough =>
        obtain rfl := Except.ok.inj reply
        exact absurd hfew (Nat.not_lt.mpr enough)
    | read got missing _ before | header got missing _ _ before | garble got missing _ before
    | whole got missing _ before | cut got missing _ before =>
        exact absurd before (hreading got missing)
    | store raw _ before | overflow raw _ before => exact absurd before (hstoring raw)
    | fetch _ _ _ _ after | write _ _ _ _ _ after =>
        rw [after]
        exact handsFree_toWrite _
    | again _ _ _ _ _ after =>
        rw [after]
        exact hidle
    | fail _ _ _ _ after | alarm _ _ after | raise _ _ after | stop _ after | release _ _ after
    | stopped _ _ after =>
        rw [after]
        rfl
  · show l.pieces ++ ((stored l.trunk _).map .queued ++ dropped _ _ l'.bridge.phase) = l.pieces
    rw [hdropped, stored_of_items (back_of_passage hpassage hstoring).1]
    simp
  · show l.ready.drop _ = l.ready
    rw [hreceived]
    rfl

theorem not_starved_of_handsFree (hidle : l.bridge.phase.handsFree = true) : l.starved = false := by
  refine not_starved_of_not_reading fun got missing hp => ?_
  rw [hp] at hidle
  cases hidle

theorem Event.untouched (e : Event l act l') (hfew : l.ready.length < Frame.headerLength)
    (hidle : l.bridge.phase.handsFree = true) :
    l'.bridge.phase.handsFree = true ∧ l'.pieces = l.pieces ∧ l'.ready = l.ready ++ act.bytes := by
  cases e with
  | wait _ hnothing => exact ⟨hidle, rfl, by rw [hnothing, List.append_nil]⟩
  | serve portion =>
      rw [Act.bytes, List.append_nil]
      · exact serve_of_few hfew hidle portion
      · simp
  | giveUp cause hstarved =>
      rw [not_starved_of_handsFree hidle] at hstarved
      cases hstarved
  | arrive bytes => exact ⟨hidle, rfl, rfl⟩
  | move move => exact ⟨hidle, rfl, (List.append_nil _).symm⟩

/-- Before a header has come in nothing is read. -/
theorem untouched_of_few {bridge : Bridge} {trunk : Trunk} (hidle : bridge.phase.handsFree = true)
    {n : ℕ} (hfew : (arrived acts n).length < Frame.headerLength) :
    let l := after { bridge, trunk } acts n
    l.bridge.phase.handsFree = true ∧ l.pieces = [] ∧ l.ready = arrived acts n := by
  induction n with
  | zero => exact ⟨hidle, rfl, rfl⟩
  | succ n ih =>
      intro l'
      have hgrow := (arrived_grow acts (Nat.le_succ n)).length_le
      obtain ⟨hidle, hpieces, hready⟩ := ih (Nat.lt_of_le_of_lt hgrow hfew)
      obtain ⟨hidle', hpieces', hready'⟩ := (apply_event _ (acts n)).untouched
        (by rw [hready]; exact Nat.lt_of_le_of_lt hgrow hfew) hidle
      exact ⟨hidle', hpieces'.trans hpieces, hready'.trans (by rw [hready, arrived])⟩

/-! ## A part of a frame -/

/-- Nothing has been made of the part yet. -/
structure Untouched (p : List UInt8) (l : Line) : Prop where
  pieces : l.pieces = []
  pending : l.pending = p

/-- The bridge is in its loop, and the next thing to do with the link is to read
the part. -/
structure Approaches (p : List UInt8) (l : Line) : Prop extends Untouched p l where
  room : l.trunk.queues.back.isFull = false
  phase : l.bridge.phase = .resting ∨ l.bridge.phase.onward = true

/-- The part has been dropped, and the bridge reads nothing. -/
structure Dropped (p : List UInt8) (l : Line) : Prop where
  pieces : ∃ cause, isQuiet cause = true ∧ l.pieces = [.cut p cause]
  idle : l.bridge.phase.handsFree = true
  ready : l.ready = []

variable {p : List UInt8} {missing : ℕ}

theorem Dropped.pending (h : Dropped p l) : l.pending = [] := by
  rw [Line.pending, held_of_handsFree h.idle, h.ready]
  rfl

theorem Event.dropped (e : Event l act l') (hnone : act.bytes = []) (h : Dropped p l) :
    Dropped p l' := by
  have hfew : l.ready.length < Frame.headerLength := by
    rw [h.ready]
    decide
  obtain ⟨hidle, hpieces, hready⟩ := e.untouched hfew h.idle
  refine ⟨hpieces ▸ h.pieces, hidle, ?_⟩
  rw [hready, hnone, h.ready, List.append_nil]

/-- As long as it makes nothing of them the bridge still has the bytes that came in. -/
theorem Event.pending (e : Event l act l') (h : Sound old l) (h' : Sound old l')
    (hnone : act.bytes = []) {new : List Piece} (hnew : l'.pieces = l.pieces ++ new) :
    new.flatMap Piece.bytes ++ l'.pending = l.pending := by
  have hheard := e.heard
  rw [h'.heard, h.heard, hnew, hnone, List.append_nil, List.flatMap_append, List.append_assoc]
    at hheard
  exact List.append_cancel_left hheard

/-- A read that gives up drops what the bridge has got. -/
theorem serve_quiet {got : List UInt8} {cause : IoError}
    (hp : l.bridge.phase = .reading got missing) (hquiet : isQuiet cause = true) :
    (l.serve (.quiet cause)).bridge.phase = .fetching
      ∧ (l.serve (.quiet cause)).pieces = l.pieces ++ [.cut got cause] := by
  have hkind : cause.kind ≠ .interrupted := by
    intro hkind
    rw [isQuiet, hkind] at hquiet
    cases hquiet
  have hstep : l.bridge.step l.trunk (.quiet cause)
      = goTo l.trunk .fetching (some (.cutShort cause)) := by
    rw [step, hp]
    show afterRead l.trunk got missing (.error cause) = _
    rw [afterRead, if_neg hkind, if_pos hquiet]
  have hphase : (l.serve (.quiet cause)).bridge.phase = .fetching :=
    congrArg (·.bridge.phase) hstep
  have hstored : stored l.trunk (l.bridge.step l.trunk (.quiet cause)).trunk = [] := by
    rw [hstep]
    exact stored_of_items rfl
  refine ⟨hphase, ?_⟩
  show l.pieces ++ ((stored l.trunk (l.bridge.step l.trunk (.quiet cause)).trunk).map .queued
    ++ dropped _ l.bridge.phase (l.serve (.quiet cause)).bridge.phase) = _
  rw [hstored, hphase, hp]
  rfl

/-- Nothing is made of a part of a frame unless a read gives up, and then all of it is
dropped. -/
theorem Event.part (e : Event l act l') (h : Sound old l) (h' : Sound old l')
    (hpart : Frame.Expects p missing) (hnone : act.bytes = []) (hl : Untouched p l) :
    Untouched p l' ∨ Dropped p l' := by
  have huntouched : l'.pieces = [] → Untouched p l' := by
    intro hpieces
    refine ⟨hpieces, ?_⟩
    rw [← hl.pending]
    exact e.pending h h' hnone (hpieces.trans hl.pieces.symm |>.trans (List.append_nil _).symm)
  cases e with
  | wait | arrive | move => exact .inl (huntouched hl.pieces)
  | serve portion hready =>
      obtain ⟨new, hnew, hcut⟩ := (Event.serve portion hready).pieces h' (by simp)
      have hstream := (Event.serve portion hready).pending h h' hnone hnew
      rw [hl.pending] at hstream
      rw [hl.pieces, List.nil_append] at hnew
      refine .inl (huntouched ?_)
      rw [hnew]
      exact no_piece_of_expects hpart (hnew ▸ h'.accounted.proper) hcut hstream
  | giveUp cause hstarved hquiet =>
      obtain ⟨got, missing', hp, hready⟩ := starved_iff.mp hstarved
      obtain ⟨hphase, hcut⟩ := serve_quiet hp hquiet
      have hpending := hl.pending
      rw [Line.pending, hp, hready, List.append_nil] at hpending
      obtain rfl : got = p := hpending
      refine .inr ⟨⟨cause, hquiet, by rw [hcut, hl.pieces]; rfl⟩, by rw [hphase]; rfl, ?_⟩
      show l.ready.drop _ = []
      rw [hready, List.drop_nil]

/-- A read that makes nothing of the part goes on. -/
theorem onward_of_reading {portion : Option ℕ} {got : List UInt8} {missing' : ℕ}
    (h' : Sound old (l.serve (.offering l.ready portion))) (hpart : Frame.Expects p missing)
    (hp : l.bridge.phase = .reading got missing')
    (hl' : Untouched p (l.serve (.offering l.ready portion))) :
    (l.serve (.offering l.ready portion)).bridge.phase.onward = true := by
  rcases phase_of_reading l.trunk (.offering l.ready portion) hp with
    ⟨got', missing'', hphase⟩ | ⟨raw, hphase⟩ | hphase | ⟨e, hphase⟩
  · exact congrArg Phase.onward hphase
  · have hstoring : (l.serve (.offering l.ready portion)).bridge.phase = .storing raw := hphase
    have hsized := h'.accounted.measured
    have hpending := hl'.pending
    rw [hstoring] at hsized
    rw [Line.pending, hstoring] at hpending
    have hproper : ∀ piece ∈ [Piece.queued raw], piece.Proper := by
      intro piece hpiece
      rw [List.mem_singleton.mp hpiece]
      exact hsized
    cases no_piece_of_expects hpart hproper (by simp)
      (by simpa [Piece.bytes, Phase.held] using hpending)
  · have hnone : dropped (.offering l.ready portion) l.bridge.phase
        (l.bridge.step l.trunk (.offering l.ready portion)).bridge.phase = [] :=
      (List.append_eq_nil_iff.mp (List.append_eq_nil_iff.mp hl'.pieces).2).2
    rw [hp, hphase, dropped] at hnone
    split at hnone <;> cases hnone
  · have hfailing : (l.serve (.offering l.ready portion)).bridge.phase = .failing e := hphase
    have hwork := h'.atWork
    rw [hfailing] at hwork
    exact hwork.elim

/-- The bridge does not turn back before it has read the part. -/
theorem onward_of_serve {portion : Option ℕ} (h' : Sound old (l.serve (.offering l.ready portion)))
    (hpart : Frame.Expects p missing) (hlong : Frame.headerLength ≤ p.length)
    (hl : Approaches p l) (hl' : Untouched p (l.serve (.offering l.ready portion)))
    (hgoing : l.trunk.cancelled = false) :
    (l.serve (.offering l.ready portion)).bridge.phase.onward = true := by
  rcases hl.phase with hp | honward
  · exact congrArg Phase.onward (step_resting hp hgoing _)
  · cases hp : l.bridge.phase with
    | checking => exact congrArg Phase.onward (step_checking hp hl.room _)
    | polling =>
        have hready : l.ready = p := by
          rw [← hl.pending, Line.pending, hp]
          rfl
        exact congrArg Phase.onward (step_polling hp (hready ▸ hlong) portion)
    | reading got missing' => exact onward_of_reading h' hpart hp hl'
    | _ =>
        rw [hp] at honward
        cases honward

/-- Once the bridge has set out to read the part it goes on until a read gives up. -/
theorem Event.approaches (e : Event l act l') (h : Sound old l) (h' : Sound old l')
    (hkeeps : act.keeps = true) (hpart : Frame.Expects p missing)
    (hlong : Frame.headerLength ≤ p.length) (hnone : act.bytes = []) (hl : Approaches p l) :
    (Approaches p l' ∧ (l.bridge.phase.onward = true → l'.bridge.phase.onward = true))
      ∨ Dropped p l' := by
  rcases e.part h h' hpart hnone hl.toUntouched with huntouched | hdropped
  · left
    have hroom : l'.trunk.queues.back.isFull = false := by
      refine (e.room h hkeeps hl.room).resolve_left ?_
      rw [huntouched.pieces]
      exact Nat.not_lt_zero _
    cases e with
    | wait | arrive | move => exact ⟨⟨huntouched, hroom, hl.phase⟩, id⟩
    | giveUp cause hstarved hquiet =>
        obtain ⟨got, missing', hp, -⟩ := starved_iff.mp hstarved
        have hpieces := huntouched.pieces
        rw [(serve_quiet hp hquiet).2] at hpieces
        simp at hpieces
    | serve portion hready =>
        have honward := onward_of_serve h' hpart hlong hl huntouched h.going
        exact ⟨⟨huntouched, hroom, .inr honward⟩, fun _ => honward⟩
  · exact .inr hdropped

/-! ## While nothing comes in -/

/-- What each act preserves that brings nothing in is preserved while nothing comes
in. -/
theorem preserved {P : Line → Prop} (h : Sound old l) (hkeeps : ∀ n, (acts n).keeps = true)
    (hstep : ∀ {l l' act}, Event l act l' → Sound old l → Sound old l' → act.keeps = true →
      act.bytes = [] → P l → P l')
    {m n : ℕ} (hle : m ≤ n) (hsame : arrived acts n = arrived acts m) (hm : P (l.after acts m)) :
    P (l.after acts n) := by
  have hreach : ∀ k, m ≤ k → k ≤ n → P (l.after acts k) := by
    intro k hk
    induction hk with
    | refl => exact fun _ => hm
    | @step k hk ih =>
        intro hkn
        exact hstep (apply_event _ _) (h.after hkeeps k) (h.after hkeeps (k + 1)) (hkeeps k)
          (no_bytes_of_arrived hsame hk hkn) (ih (Nat.le_of_succ_le hkn))
  exact hreach n hle le_rfl

theorem dropped_after (h : Sound old l) (hkeeps : ∀ n, (acts n).keeps = true) {m n : ℕ}
    (hle : m ≤ n) (hsame : arrived acts n = arrived acts m) (hm : Dropped p (l.after acts m)) :
    Dropped p (l.after acts n) :=
  preserved h hkeeps (fun e _ _ _ hnone hl => e.dropped hnone hl) hle hsame hm

theorem part_after (h : Sound old l) (hkeeps : ∀ n, (acts n).keeps = true)
    (hpart : Frame.Expects p missing) {m n : ℕ} (hle : m ≤ n)
    (hsame : arrived acts n = arrived acts m) (hm : Untouched p (l.after acts m)) :
    Untouched p (l.after acts n) ∨ Dropped p (l.after acts n) := by
  refine preserved (P := fun l => Untouched p l ∨ Dropped p l) h hkeeps ?_ hle hsame (.inl hm)
  rintro l l' act e h h' - hnone (hl | hl)
  · exact e.part h h' hpart hnone hl
  · exact .inr (e.dropped hnone hl)

theorem approaches_after (h : Sound old l) (hkeeps : ∀ n, (acts n).keeps = true)
    (hpart : Frame.Expects p missing) (hlong : Frame.headerLength ≤ p.length) {m n : ℕ}
    (hle : m ≤ n) (hsame : arrived acts n = arrived acts m) (hm : Approaches p (l.after acts m)) :
    (Approaches p (l.after acts n) ∧ ((l.after acts m).bridge.phase.onward = true →
        (l.after acts n).bridge.phase.onward = true))
      ∨ Dropped p (l.after acts n) := by
  refine preserved (P := fun l' => (Approaches p l' ∧ ((l.after acts m).bridge.phase.onward = true →
    l'.bridge.phase.onward = true)) ∨ Dropped p l') h hkeeps ?_ hle hsame (.inl ⟨hm, id⟩)
  rintro l l' act e h h' hkeep hnone (⟨hl, honward⟩ | hl)
  · exact (e.approaches h h' hkeep hpart hlong hnone hl).imp_left fun hl' =>
      ⟨hl'.1, hl'.2 ∘ honward⟩
  · exact .inr (e.dropped hnone hl)

/-! ## A quiet link -/

/-- The bridge goes round its loop once. It has room in its queue when it sets out. -/
structure Round (l : Line) (acts : ℕ → Act) (first last : ℕ) : Prop where
  begins : (l.after acts first).bridge.phase = .resting
  room : (l.after acts first).trunk.queues.back.isFull = false
  goes : ∃ n, first < n ∧ n < last ∧ (l.after acts n).bridge.phase ≠ .resting
  ends : (l.after acts last).bridge.phase = .resting

/-- A part of a frame comes in, and then nothing for a time in which reads may give
up and the bridge goes round its loop. Then the next frame comes in. -/
structure Breaks (l : Line) (acts : ℕ → Act) (p : List UInt8) (g : Frame) (quiet next : ℕ) :
    Prop where
  part : arrived acts quiet = p
  nothing : arrived acts next = p
  patient : ∀ n cause, acts n = .giveUp cause → quiet ≤ n ∧ n < next
  round : ∃ first last, quiet ≤ first ∧ last ≤ next ∧ Round l acts first last
  arrives : ∃ n, ∀ m, n ≤ m → arrived acts m = p ++ g.encode

/-- A schedule with a pause: a part of a frame comes in before it, and the next frame
after it. -/
theorem breaks_schedule {before pause rest : List Act} {g : Frame}
    (hpart : before.flatMap Act.bytes = p) (hnothing : pause.flatMap Act.bytes = [])
    (hnext : rest.flatMap Act.bytes = g.encode)
    (hpatient : ∀ act ∈ before ++ rest, ∀ cause, act ≠ .giveUp cause)
    (hround : ∃ first last, before.length ≤ first ∧ last ≤ before.length + pause.length
      ∧ Round l (schedule (before ++ pause ++ rest)) first last) :
    Breaks l (schedule (before ++ pause ++ rest)) p g before.length
      (before.length + pause.length) := by
  have hpause : (before ++ pause).length = before.length + pause.length := List.length_append
  refine ⟨?_, ?_, fun n cause hact => ?_, hround, (before ++ pause ++ rest).length, fun m hm => ?_⟩
  · rw [arrived_schedule, List.append_assoc, List.take_left, hpart]
  · rw [arrived_schedule, ← hpause, List.take_left, List.flatMap_append, hpart, hnothing,
      List.append_nil]
  · have hgiven := schedule_patient hact
    by_contra hout
    rcases Nat.lt_or_ge n before.length with hn | hn
    · rw [List.append_assoc, List.getElem?_append_left hn] at hgiven
      exact hpatient _ (List.mem_append_left _ (List.mem_of_getElem? hgiven)) cause rfl
    · have hlate : (before ++ pause).length ≤ n := by omega
      rw [List.getElem?_append_right hlate] at hgiven
      exact hpatient _ (List.mem_append_right _ (List.mem_of_getElem? hgiven)) cause rfl
  · rw [arrived_schedule, List.take_of_length_le hm, List.flatMap_append, List.flatMap_append,
      hpart, hnothing, hnext, List.append_nil]

/-- After a round either the part has been read and dropped, or it had been before. -/
theorem Round.dropped {first last : ℕ} (hround : Round l acts first last) (h : Sound old l)
    (hkeeps : ∀ n, (acts n).keeps = true) (hpart : Frame.Expects p missing)
    (hlong : Frame.headerLength ≤ p.length) (hsame : arrived acts last = arrived acts first)
    (hfirst : Untouched p (l.after acts first) ∨ Dropped p (l.after acts first)) :
    Dropped p (l.after acts last) := by
  obtain ⟨n, hn, hn', hmoved⟩ := hround.goes
  rcases hfirst with huntouched | hdropped
  · have hnow := arrived_between hsame hn.le hn'.le
    have hset : Approaches p (l.after acts first) :=
      ⟨huntouched, hround.room, .inl hround.begins⟩
    rcases approaches_after h hkeeps hpart hlong hn.le hnow hset with ⟨hgone, -⟩ | hdropped
    · have honward := hgone.phase.resolve_left hmoved
      rcases approaches_after h hkeeps hpart hlong hn'.le (hsame.trans hnow.symm) hgone with
        ⟨-, hend⟩ | hdropped
      -- Still on its way to the part, the bridge would not be back where it set out.
      · have hstill := hend honward
        rw [hround.ends] at hstill
        cases hstill
      · exact hdropped
    · exact dropped_after h hkeeps hn'.le (hsame.trans hnow.symm) hdropped
  · exact dropped_after h hkeeps (hn.trans hn').le hsame hdropped

section

variable {bridge : Bridge} {trunk : Trunk} {g : Frame} {quiet next : ℕ}

/-- As long as no read gives up nothing is made of a part of a frame. -/
theorem untouched_of_patient (h : Sound old { bridge, trunk }) (hkeeps : ∀ n, (acts n).keeps = true)
    (hpart : Frame.Expects p missing) (harrived : arrived acts quiet = p)
    (hpatient : ∀ n, n < quiet → ∀ cause, acts n ≠ .giveUp cause) :
    Untouched p (after { bridge, trunk } acts quiet) := by
  obtain ⟨new, hnew, hcut⟩ := pieces_since h hkeeps (Nat.zero_le quiet) fun n _ => hpatient n
  have hstream := h.stream hkeeps quiet
  have hproper := (h.after hkeeps quiet).accounted.proper
  rw [harrived] at hstream
  rw [show new = (after { bridge, trunk } acts quiet).pieces from hnew.symm] at hcut
  have hpieces := no_piece_of_expects hpart hproper hcut hstream
  refine ⟨hpieces, ?_⟩
  rw [hpieces] at hstream
  exact hstream

theorem Breaks.dropped (hbreaks : Breaks { bridge, trunk } acts p g quiet next)
    (h : Sound old { bridge, trunk }) (hkeeps : ∀ n, (acts n).keeps = true)
    (hpart : Frame.Expects p missing) (hlong : Frame.headerLength ≤ p.length) :
    Dropped p (after { bridge, trunk } acts next) := by
  obtain ⟨first, last, hquiet, hnext, hround⟩ := hbreaks.round
  obtain ⟨n, hn, hn', -⟩ := hround.goes
  have hlast : first ≤ last := (hn.trans hn').le
  have hsame : ∀ k, quiet ≤ k → k ≤ next → arrived acts k = p := fun k hk hk' =>
    (arrived_between (hbreaks.nothing.trans hbreaks.part.symm) hk hk').trans hbreaks.part
  have hstart : Untouched p (after { bridge, trunk } acts quiet) :=
    untouched_of_patient h hkeeps hpart hbreaks.part fun n hn cause hact =>
      absurd hn (Nat.not_lt.mpr (hbreaks.patient n cause hact).1)
  have hfirst := hsame first hquiet (hlast.trans hnext)
  have hend := hsame last (hquiet.trans hlast) hnext
  have hbegin := part_after h hkeeps hpart hquiet (hfirst.trans hbreaks.part.symm) hstart
  have hdropped := hround.dropped h hkeeps hpart hlong (hend.trans hfirst.symm) hbegin
  exact dropped_after h hkeeps hnext (hbreaks.nothing.trans hend.symm) hdropped

/-- A frame that is cut short behind its header does no harm to the next one. When the
link has been quiet for so long that the read has given up and the bridge has gone round
its loop, the part is dropped, and then the next frame is queued and nothing else is.
A part that is shorter than a header is not read at all: it is still there when the next
frame comes in. -/
theorem part_dropped_behind_header (f g : Frame) (p : List UInt8) (bridge : Bridge)
    (trunk : Trunk) (acts : ℕ → Act) (quiet next : ℕ)
    (hrest : bridge.phase = .starting ∨ bridge.phase = .resting)
    (hopen : trunk.queues.forth.senderOpen = true ∧ trunk.queues.back.receiverOpen = true)
    (hgoing : trunk.cancelled = false) (hfair : Fair { bridge, trunk } acts)
    (hfront : p <+: f.encode) (hproper : p ≠ f.encode)
    (hbreaks : Breaks { bridge, trunk } acts p g quiet next) :
    let l := after { bridge, trunk } acts
    (Frame.headerLength ≤ p.length → ∃ cause, isQuiet cause = true
      ∧ (l next).pieces = [.cut p cause]
      ∧ ∃ n, ∀ m, n ≤ m → (l m).pieces = [.cut p cause, .queued g.encode]
        ∧ (l m).queued = [g.encode]
        ∧ (l m).taken ++ (l m).trunk.queues.back.items
          = trunk.queues.back.items ++ [g.encode])
    ∧ (p.length < Frame.headerLength → (l next).pieces = [] ∧ (l next).ready = p) := by
  intro l
  have hsound : Sound trunk.queues.back.items { bridge, trunk } := .of_rest hrest hopen hgoing
  refine ⟨fun hlong => ?_, fun hfew => ?_⟩
  · obtain ⟨missing, hpart⟩ := Frame.exists_expects_of_part hfront hproper
    have hdropped := hbreaks.dropped hsound hfair.keeps hpart hlong
    obtain ⟨cause, hquiet, hcut⟩ := hdropped.pieces
    have hfeeds : Feeds { bridge, trunk } acts next [g] := by
      refine ⟨hdropped.pending, fun n hn cause hact => ?_, ?_⟩
      · exact absurd hn (Nat.not_le.mpr (hbreaks.patient n cause hact).2)
      · rw [hbreaks.nothing, List.flatMap_singleton]
        exact hbreaks.arrives
    obtain ⟨n, -, hn⟩ := hfeeds.eventually_stored hsound hfair
    refine ⟨cause, hquiet, hcut, n, fun m hm => ?_⟩
    have hpieces : (l m).pieces = [.cut p cause, .queued g.encode] := by
      rw [hn m hm, hcut]
      rfl
    have hqueued : (l m).queued = [g.encode] := by
      rw [Intake.queued, hpieces]
      rfl
    refine ⟨hpieces, hqueued, ?_⟩
    rw [← hqueued]
    exact (hsound.after hfair.keeps m).accounted.queue
  · have hidle : bridge.phase.handsFree = true := by
      rcases hrest with hp | hp <;> rw [hp] <;> rfl
    rw [← hbreaks.nothing] at hfew
    obtain ⟨-, hpieces, hready⟩ : (l next).bridge.phase.handsFree = true ∧ (l next).pieces = []
        ∧ (l next).ready = arrived acts next := untouched_of_few hidle hfew
    exact ⟨hpieces, hready.trans hbreaks.nothing⟩

end

/-- A frame with five bytes of payload, of which two come in. The bridge waits for the
others until the read gives up, and goes on to the next frame. -/
theorem payload_cut_short :
    let cli : Frame := ⟨.cliData, 3, 0, [104, 101, 108, 108, 111], by decide⟩
    let ack := Frame.empty .ack 3 0
    let p := cli.encode.take 7
    let pause := List.replicate 7 (.step (some 9)) ++ [.giveUp (.ofKind .timedOut), .step (some 9)]
    let acts := schedule ([.arrive p] ++ pause ++ [.arrive ack.encode])
    Fair { trunk := .ofCapacity 8 } acts ∧ p <+: cli.encode ∧ p ≠ cli.encode
      ∧ Frame.headerLength ≤ p.length ∧ Breaks { trunk := .ofCapacity 8 } acts p ack 1 10
      ∧ ∃ n, ∀ m, n ≤ m → (after { trunk := .ofCapacity 8 } acts m).queued = [ack.encode] := by
  intro cli ack p pause acts
  have hfair : Fair { trunk := .ofCapacity 8 } acts :=
    fair_schedule (.of_rest (.inl rfl) ⟨rfl, rfl⟩ rfl) (by simp [pause, Act.keeps]) (by decide)
      (Nat.zero_le 8)
  have hfront : p <+: cli.encode := List.take_prefix 7 cli.encode
  have hlength : p.length = 7 := by
    rw [List.length_take, Frame.length_encode]
    rfl
  have hproper : p ≠ cli.encode := by
    intro hsame
    rw [hsame, Frame.length_encode] at hlength
    exact absurd hlength (by decide)
  have hround : Round { trunk := .ofCapacity 8 } acts 2 10 :=
    ⟨by decide +kernel, by decide +kernel, ⟨3, by decide, by decide, by decide +kernel⟩,
      by decide +kernel⟩
  have hbreaks : Breaks { trunk := .ofCapacity 8 } acts p ack 1 10 :=
    breaks_schedule (List.append_nil p) rfl (List.append_nil ack.encode) (by simp)
      ⟨2, 10, by decide, by decide, hround⟩
  obtain ⟨hdropped, -⟩ := part_dropped_behind_header cli ack p {} (.ofCapacity 8) acts 1 10
    (.inl rfl) ⟨rfl, rfl⟩ rfl hfair hfront hproper hbreaks
  obtain ⟨cause, -, -, n, hn⟩ := hdropped (by rw [hlength]; decide)
  exact ⟨hfair, hfront, hproper, by rw [hlength]; decide, hbreaks, n, fun m hm => (hn m hm).2.1⟩

/-- The first byte of a frame is taken for the first byte of the next one, although the
bridge has gone round its loop in between. With it the next frame looks like the
beginning of a longer one, and it is not queued. -/
theorem header_cut_short_spoils_next :
    let ack := Frame.empty .ack 3 0
    let acts := schedule ([.arrive [3]] ++ List.replicate 5 (.step (some 9)) ++ [.arrive ack.encode])
    Fair { trunk := .ofCapacity 8 } acts ∧ [3] <+: ack.encode ∧ [3] ≠ ack.encode
      ∧ Breaks { trunk := .ofCapacity 8 } acts [3] ack 1 6
      ∧ ∀ m, (after { trunk := .ofCapacity 8 } acts m).pieces = [] := by
  intro ack acts
  have hsound : Sound (Trunk.ofCapacity 8).queues.back.items { trunk := .ofCapacity 8 } :=
    .of_rest (.inl rfl) ⟨rfl, rfl⟩ rfl
  have hfair : Fair { trunk := .ofCapacity 8 } acts :=
    fair_schedule hsound (by simp [Act.keeps]) (by decide) (Nat.zero_le 8)
  have hround : Round { trunk := .ofCapacity 8 } acts 2 6 :=
    ⟨by decide +kernel, by decide +kernel, ⟨3, by decide, by decide, by decide +kernel⟩,
      by decide +kernel⟩
  have hbreaks : Breaks { trunk := .ofCapacity 8 } acts [3] ack 1 6 :=
    breaks_schedule rfl rfl (List.append_nil ack.encode) (by simp)
      ⟨2, 6, by decide, by decide, hround⟩
  refine ⟨hfair, ⟨_, rfl⟩, by simp [ack, Frame.encode_eq], hbreaks, fun m => ?_⟩
  -- The five bytes 3, 3, 0, 1, 0 announce a payload of 256 bytes.
  have hlonger : Frame.Expects ([3] ++ ack.encode) 255 :=
    ⟨by decide, .inr ⟨by decide +kernel, by decide +kernel⟩⟩
  obtain ⟨rest, hrest⟩ : arrived acts m <+: [3] ++ ack.encode := by
    obtain ⟨n, hn⟩ := hbreaks.arrives
    rw [← hn (max m n) (Nat.le_max_right m n)]
    exact arrived_grow acts (Nat.le_max_left m n)
  rw [← hrest] at hlonger
  obtain ⟨missing, hpart⟩ := hlonger.front
  refine (untouched_of_patient hsound hfair.keeps hpart rfl fun n _ cause hact => ?_).pieces
  simpa using List.mem_of_getElem? (schedule_patient hact)

end

end Line

end Bridge

end BoardFlash
