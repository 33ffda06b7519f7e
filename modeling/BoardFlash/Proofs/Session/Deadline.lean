import BoardFlash.Proofs.CommandLine.Numbers
import BoardFlash.Proofs.Session.Validation

/-!
# Deadlines that do not exist

A session that begins an exchange adds the response timeout to what the clock
shows. The clock ends at `Instant.horizon`, and a session that would have to wait
beyond it breaks down. Whether that can happen is a matter of the timeout and of the
latest reading of the clock alone (`Settings.deadlines_until_horizon`): up to a reading
from which the timeout does not reach the horizon no session breaks down for
this reason, and from there on every session does in its first exchange, before it has
sent anything.

`Settings.validate` asks of the timeout only that it is not zero. So every number
of seconds can be chosen on the command line, among them those that reach the
horizon from the very first reading (`longest_timeout_aborts`).
-/

namespace BoardFlash

namespace Instant

/-- The clock shows nothing from here on, in nanoseconds. -/
def horizon : Int := 0x8000000000000000 * 1000000000

theorem after?_isSome_iff {t : Instant} (h : t.Readable) (d : Duration) :
    (t.after? d).isSome = true ↔ t.nanos + d.toNanos < horizon := by
  by_cases hlater : (⟨t.nanos + d.toNanos⟩ : Instant).Readable
  · exact iff_of_true (by rw [after?, if_pos hlater, Option.isSome_some]) hlater.2
  · refine iff_of_false (by rw [after?, if_neg hlater]; nofun) fun hlt => hlater ⟨?_, hlt⟩
    exact Int.le_trans h.1 (Int.le_add_of_nonneg_right (Int.natCast_nonneg _))

theorem after?_eq_none_iff {t : Instant} (h : t.Readable) (d : Duration) :
    t.after? d = none ↔ horizon ≤ t.nanos + d.toNanos := by
  rw [← Option.not_isSome_iff_eq_none, after?_isSome_iff h, Int.not_lt]

end Instant

/-! ## Sessions that begin early enough -/

/-- A step is taken no later than this. -/
def Post.Event.NoLater (latest : Instant) : Post.Event → Prop
  | .step now => now.Readable ∧ now.nanos ≤ latest.nanos
  | _ => True

instance (latest : Instant) (e : Post.Event) : Decidable (e.NoLater latest) :=
  match e with
  | .step _ => inferInstanceAs (Decidable (_ ∧ _))
  | .kill | .move _ => isTrue trivial

section

variable {now latest : Instant} {s : Session} {m : Mailbox} {r : Session.Reaction}

/-- A session that breaks down for want of a deadline does so in a step for which
there is none. -/
theorem Session.Course.deadline (h : Course now s m r) (hs : s.phase ≠ .crashed .deadlineOverflow)
    (hdue : (now.after? s.responseTimeout).isSome = true) :
    r.session.phase ≠ .crashed .deadlineOverflow := by
  cases h with
  | crash fault m' why result =>
      subst result
      cases why with
      | overdue state phase sends never =>
          rw [never] at hdue
          cases hdue
      | _ => simp
  | idle ended result => exact result ▸ hs
  | _ => simp_all

theorem Post.deadline_run {p : Post} (hphase : p.session.phase ≠ .crashed .deadlineOverflow)
    (htime : latest.nanos + p.session.responseTimeout.toNanos < Instant.horizon)
    {events : List Event} (hevents : ∀ e ∈ events, e.NoLater latest) :
    (p.run events).session.phase ≠ .crashed .deadlineOverflow := by
  induction events generalizing p with
  | nil => exact hphase
  | cons e events ih =>
      obtain ⟨he, hrest⟩ := List.forall_mem_cons.mp hevents
      rw [run_cons]
      cases e with
      | step now =>
          have hdue : (now.after? p.session.responseTimeout).isSome = true := by
            rw [Instant.after?_isSome_iff he.1]
            exact Int.lt_of_le_of_lt (Int.add_le_add_right he.2 _) htime
          refine ih ((Session.step_course now p.session p.mailbox).deadline hphase hdue) ?_ hrest
          show latest.nanos + (p.session.step now p.mailbox).session.responseTimeout.toNanos < _
          rwa [Session.step_responseTimeout]
      | kill =>
          unfold apply
          dsimp only
          split
          · exact ih hphase htime hrest
          · exact ih nofun htime hrest
      | move change => exact ih hphase htime hrest

/-! ## Sessions that begin too late -/

/-- The first exchange of a session, begun at a time when there is no deadline for
it. -/
theorem Post.first_exchange_breaks {image : Firmware} {board : UInt8} {settings : Settings}
    (hnever : now.after? settings.responseTimeout = none) (hfree : m.cancelled = false) :
    ((⟨.new board image settings, m⟩ : Post).run [.step now, .step now, .step now]).session.phase
      = .crashed .deadlineOverflow := by
  let f : Frame := ⟨.programUpdateRequest, hostId, board,
    (UpdateRequest.announce image.chunkCount image.digest).encode,
    by rw [UpdateRequest.length_encode]; decide⟩
  have hbuilt : Frame.build .programUpdateRequest hostId board
      (UpdateRequest.announce image.chunkCount image.digest).encode = .ok f :=
    Frame.build_eq_ok_iff.mpr ⟨rfl, rfl, rfl, rfl⟩
  simp only [run, List.foldl_cons, List.foldl_nil, apply, ofReaction, Session.new, Session.step,
    Session.goTo, hfree, Bool.false_and, Bool.false_eq_true, if_false, Session.work, hbuilt,
    Session.exchange, hnever, Session.crash]

theorem Post.first_exchange_aborts {image : Firmware} {board : UInt8} {settings : Settings}
    (hnever : now.after? settings.responseTimeout = none) (hfree : m.cancelled = false) :
    ((⟨.new board image settings, m⟩ : Post).run
      [.step now, .step now, .step now]).session.outcome? = some (.aborted board) := by
  have hboard := Post.board_run ⟨.new board image settings, m⟩ [.step now, .step now, .step now]
  rw [Session.outcome?, Post.first_exchange_breaks hnever hfree, hboard]
  rfl

end

/-! ## Timeouts that can be chosen -/

namespace CommandLine.Request

/-- The user names two files and the seconds of the timeout. -/
def ofTimeout (n : UInt64) (boards firmware : String) : Request where
  values := [(.timeout, toString n.toNat)]
  operands := [boards, firmware]

theorem read_timeout (n : UInt64) {boards firmware : String}
    (hboards : boards.toList.head? ≠ some '-') (hfirmware : firmware.toList.head? ≠ some '-') :
    read ["--timeout=" ++ toString n.toNat, boards, firmware]
      = .ok (ofTimeout n boards firmware) := by
  have hadd : ({} : Request).add ("--timeout=" ++ toString n.toNat)
      = .ok { values := [(.timeout, toString n.toNat)] } :=
    add_number {} (p := .timeout) rfl n.toNat
  have hnumber : "--timeout=" ++ toString n.toNat ≠ "--" := by
    intro h
    have hmem : 't' ∈ ("--timeout=" ++ toString n.toNat).toList := by
      rw [String.toList_append]
      exact List.mem_append_left _ (by decide)
    rw [h] at hmem
    exact absurd hmem (by decide)
  have hplain {argument : String} (h : argument.toList.head? ≠ some '-') : argument ≠ "--" := by
    rintro rfl
    exact h rfl
  have hread : ({} : Request).addAll false
      ["--timeout=" ++ toString n.toNat, boards, firmware]
      = .ok (ofTimeout n boards firmware) := by
    rw [addAll_cons hnumber hadd, addAll_cons (hplain hboards) (add_operand _ hboards),
      addAll_cons (hplain hfirmware) (add_operand _ hfirmware)]
    rfl
  rw [read, hread]
  rfl

theorem settings_timeout (n : UInt64) (boards firmware : String) :
    (ofTimeout n boards firmware).settings = .ok { responseTimeout := .ofSeconds n } := by
  have hbaud : (ofTimeout n boards firmware).number 32 .baudRate = .ok 115200 :=
    number_eq_ok rfl (by decide)
  have hchunk : (ofTimeout n boards firmware).number 64 .chunkSize = .ok 2048 :=
    number_eq_ok rfl (by decide)
  have htimeout : (ofTimeout n boards firmware).number 64 .timeout = .ok n.toNat :=
    number_eq_ok rfl (Nat.le_of_lt_succ n.toNat_lt)
  have hretries : (ofTimeout n boards firmware).number 32 .retries = .ok 5 :=
    number_eq_ok rfl (by decide)
  have hword : n.toNat.toUInt64 = n := UInt64.ofNat_toNat
  simp only [settings, hbaud, hchunk, htimeout, hretries, hword, bind, Except.bind]
  rfl

end CommandLine.Request

namespace Settings

theorem validate_timeout {n : UInt64} (hn : n ≠ 0) :
    ({ responseTimeout := .ofSeconds n } : Settings).validate = .ok () := by
  have htime : Duration.ofSeconds n ≠ .zero := fun h => hn (Duration.mk.inj h).1
  rw [validate_eq_ok_iff, fault?_eq_none_iff]
  have hchunk : 0 < (2048 : UInt64).toNat ∧ (2048 : UInt64).toNat ≤ maxPayload := by decide
  have hretries : (5 : UInt32) ≠ 0 := by decide
  have hqueues : 0 < (100 : UInt64).toNat := by decide
  exact ⟨hchunk, hretries, htime, hqueues, nofun⟩

/-- There is a deadline as long as the timeout does not reach the horizon from what the
clock shows. A session that looks at the clock only before that never breaks down for want
of one; a session that begins later does, and is aborted, unless it is cancelled. Every
number of seconds but zero can be chosen as the timeout. -/
theorem deadlines_until_horizon (s : Settings) {latest : Instant} (hlatest : latest.Readable) :
    ((latest.after? s.responseTimeout).isSome = true
      ↔ latest.nanos + s.responseTimeout.toNanos < Instant.horizon)
    ∧ (latest.nanos + s.responseTimeout.toNanos < Instant.horizon →
      ∀ image board mailbox events, (∀ e ∈ events, e.NoLater latest) →
        ((⟨.new board image s, mailbox⟩ : Post).run events).session.phase
          ≠ .crashed .deadlineOverflow)
    ∧ (Instant.horizon ≤ latest.nanos + s.responseTimeout.toNanos →
      ∀ image board mailbox, mailbox.cancelled = false →
        ((⟨.new board image s, mailbox⟩ : Post).run
          [.step latest, .step latest, .step latest]).session.outcome? = some (.aborted board))
    ∧ ∀ (n : UInt64) (boards firmware : String), n ≠ 0 → boards.toList.head? ≠ some '-' →
      firmware.toList.head? ≠ some '-' → ∃ request chosen,
        CommandLine.Request.read ["--timeout=" ++ toString n.toNat, boards, firmware] = .ok request
        ∧ request.settings = .ok chosen ∧ chosen.validate = .ok ()
        ∧ chosen.responseTimeout = .ofSeconds n := by
  refine ⟨Instant.after?_isSome_iff hlatest _, fun htime image board mailbox events hevents => ?_,
    fun hlate image board mailbox hfree => ?_, fun n boards firmware hn hboards hfirmware => ?_⟩
  · have hwaiting : (Session.new board image s).phase ≠ .crashed .deadlineOverflow := nofun
    exact Post.deadline_run (p := ⟨.new board image s, mailbox⟩) hwaiting htime hevents
  · exact Post.first_exchange_aborts ((Instant.after?_eq_none_iff hlatest _).mpr hlate) hfree
  · exact ⟨_, _, CommandLine.Request.read_timeout n hboards hfirmware,
      CommandLine.Request.settings_timeout n boards firmware, validate_timeout hn, rfl⟩

/-- A day is short enough for a session that begins when the clock shows an hour. -/
theorem day_after_an_hour :
    let s : Settings := { responseTimeout := .ofSeconds 86400 }
    let hour : Instant := ⟨3600 * 1000000000⟩
    let image : Firmware := ⟨#[1, 2, 3], Hmac.mac [1, 2, 3] s.key, 2048, 1⟩
    ((⟨.new 7 image s, .ofCapacity 1⟩ : Post).run
      [.step .origin, .step hour, .step hour, .step hour]).session.phase
        ≠ .crashed .deadlineOverflow
    ∧ ∃ request, CommandLine.Request.read ["--timeout=86400", "boards", "image"] = .ok request
      ∧ ∃ s, request.settings = .ok s ∧ s.responseTimeout = .ofSeconds 86400 := by
  intro s hour image
  have hhour : hour.Readable := by decide
  have htime : hour.nanos + s.responseTimeout.toNanos < Instant.horizon := by decide
  obtain ⟨-, hnever, -, hchoice⟩ := deadlines_until_horizon s hhour
  obtain ⟨request, chosen, hread, hchosen, -, htimeout⟩ :=
    hchoice 86400 "boards" "image" (by decide) (by decide) (by decide)
  refine ⟨hnever htime image 7 (.ofCapacity 1) _ ?_, request, hread, chosen, hchosen, htimeout⟩
  decide

/-- The longest timeout of all is valid, and every session with it is aborted: at a clock that
has just been started there is no deadline. -/
theorem longest_timeout_aborts :
    let s : Settings := { responseTimeout := .ofSeconds 18446744073709551615 }
    let image : Firmware := ⟨#[1, 2, 3], Hmac.mac [1, 2, 3] s.key, 2048, 1⟩
    s.validate = .ok () ∧ Firmware.build Firmware.inMemory #[1, 2, 3] s.chunkSize s.key = .ok image
    ∧ Instant.origin.after? s.responseTimeout = none
    ∧ ((⟨.new 3 image s, .ofCapacity 100⟩ : Post).run
      [.step .origin, .step .origin, .step .origin]).session.outcome? = some (.aborted 3) := by
  intro s image
  have hnever : Instant.origin.after? s.responseTimeout = none := by decide
  have himage : Firmware.build Firmware.inMemory #[1, 2, 3] 2048 s.key = .ok image := rfl
  exact ⟨validate_timeout (by decide), himage, hnever, Post.first_exchange_aborts hnever rfl⟩

end Settings

end BoardFlash
