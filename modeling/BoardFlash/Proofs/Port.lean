import BoardFlash.Port
import Mathlib.Data.List.Basic

/-!
# When a named port is ready

The path that the user named is compared with what is shown of each device:
the name and, behind a colon, what a USB device says about itself. A path
without a colon never reaches that far (`isPrefixOf_label_iff`), so manufacturers
and products do not matter. What does matter is that the path only has to be the
beginning of a name. A device with just that name is never missed, but one with a
longer name passes for it (`Port.ready_iff_name_begins`).
-/

namespace BoardFlash

/-- The name of the device begins with the path. -/
def Device.BeginsWith (d : Device) (path : String) : Prop := path.toList <+: d.name.toList

instance (d : Device) (path : String) : Decidable (d.BeginsWith path) :=
  inferInstanceAs (Decidable (_ <+: _))

/-- A list without `c` that begins a list begins what stands before a `c`. -/
theorem prefix_append_cons_iff {α : Type} {c : α} {l before after : List α} (hc : c ∉ l) :
    l <+: before ++ c :: after ↔ l <+: before := by
  refine ⟨fun h => ?_, List.prefix_append_of_prefix⟩
  rcases List.prefix_or_prefix_of_prefix h (List.prefix_append before _) with hl | ⟨more, rfl⟩
  · exact hl
  · rcases more with - | ⟨a, more⟩
    · simp only [List.append_nil, List.prefix_rfl]
    · obtain ⟨rfl, -⟩ := List.cons_prefix_cons.mp ((List.prefix_append_right_inj before).mp h)
      exact absurd (List.mem_append_right before (List.mem_cons_self ..)) hc

namespace Port

section

variable {path : String} (hpath : ':' ∉ path.toList)

include hpath

theorem isPrefixOf_label_iff (d : Device) :
    path.toList.isPrefixOf d.label.toList = true ↔ d.BeginsWith path := by
  rw [List.isPrefixOf_iff_prefix, Device.label]
  split
  · rfl
  · simp only [String.toList_append, List.append_assoc]
    exact prefix_append_cons_iff hpath

theorem isListed_iff (devices : List Device) :
    isListed devices path = true ↔ ∃ d ∈ devices, d.BeginsWith path := by
  rw [isListed, List.any_eq_true]
  exact exists_congr fun d => and_congr_right fun _ => isPrefixOf_label_iff hpath d

/-- The wait goes on as long as it is not cancelled, no such device is there and
no key is hit that matters. -/
theorem outcome?_eq_none_iff (look : Look) :
    look.outcome? path = none ↔
      look.cancelled = false ∧ (∀ d ∈ look.devices, ¬d.BeginsWith path) ∧ look.key = .other := by
  unfold Look.outcome?
  split
  · next hcancelled => simp [hcancelled]
  · next hcancelled =>
    split
    · next hlisted =>
      obtain ⟨d, hd, hbegins⟩ := (isListed_iff hpath look.devices).mp hlisted
      simp only [reduceCtorEq, false_iff]
      exact fun h => h.2.1 d hd hbegins
    · next hlisted =>
      have hnone : ∀ d ∈ look.devices, ¬d.BeginsWith path := fun d hd hbegins =>
        hlisted ((isListed_iff hpath look.devices).mpr ⟨d, hd, hbegins⟩)
      cases look.key with
      | other => exact iff_of_true rfl ⟨Bool.eq_false_iff.mpr hcancelled, hnone, rfl⟩
      | interrupt | escape => simp

theorem outcome?_eq_ready_iff (look : Look) :
    look.outcome? path = some .ready ↔
      look.cancelled = false ∧ ∃ d ∈ look.devices, d.BeginsWith path := by
  rw [← isListed_iff hpath]
  unfold Look.outcome?
  cases look.cancelled with
  | true => simp
  | false =>
      cases isListed look.devices path with
      | true => simp
      | false => cases look.key <;> simp

end

/-- The wait ends with the first look that ends it. -/
theorem wait_eq_some_iff {path : String} {looks rest : List Look} {outcome : WaitOutcome} :
    wait path looks = some (outcome, rest) ↔
      ∃ before look, looks = before ++ look :: rest ∧ (∀ l ∈ before, l.outcome? path = none)
        ∧ look.outcome? path = some outcome := by
  induction looks with
  | nil => simp [wait]
  | cons first looks ih =>
      rw [wait]
      cases hfirst : first.outcome? path with
      | none =>
          rw [ih]
          constructor
          · rintro ⟨before, look, rfl, hbefore, hlook⟩
            exact ⟨first :: before, look, rfl, List.forall_mem_cons.mpr ⟨hfirst, hbefore⟩, hlook⟩
          · rintro ⟨_ | ⟨l, before⟩, look, hlooks, hbefore, hlook⟩
            · rw [List.nil_append, List.cons.injEq] at hlooks
              rw [← hlooks.1, hfirst] at hlook
              cases hlook
            · obtain ⟨rfl, rfl⟩ := List.cons.inj hlooks
              exact ⟨before, look, rfl, (List.forall_mem_cons.mp hbefore).2, hlook⟩
      | some found =>
          rw [Option.some.injEq, Prod.mk.injEq]
          constructor
          · rintro ⟨rfl, rfl⟩
            exact ⟨[], first, rfl, nofun, hfirst⟩
          · rintro ⟨_ | ⟨l, before⟩, look, hlooks, hbefore, hlook⟩
            · obtain ⟨rfl, rfl⟩ := List.cons.inj hlooks
              rw [hfirst, Option.some.injEq] at hlook
              exact ⟨hlook, rfl⟩
            · obtain ⟨rfl, -⟩ := List.cons.inj hlooks
              rw [(List.forall_mem_cons.mp hbefore).1] at hfirst
              cases hfirst

/-- A port is taken for ready when the name of a device that is connected begins
with the path, whatever the devices say about themselves. So the right device is
never missed, and no other is taken for it as long as none of them has a name
that goes on behind the path. The wait ends as ready with the first look at such
a device, unless it is cancelled or a key that matters is hit before. -/
theorem ready_iff_name_begins {path : String} (hpath : ':' ∉ path.toList) :
    (∀ devices, (isListed devices path = true ↔ ∃ d ∈ devices, d.BeginsWith path)
      ∧ ((∃ d ∈ devices, d.name = path) → isListed devices path = true)
      ∧ ((∀ d ∈ devices, d.BeginsWith path → d.name = path) →
        (isListed devices path = true ↔ ∃ d ∈ devices, d.name = path)))
    ∧ ∀ looks rest, wait path looks = some (.ready, rest) ↔
      ∃ before look, looks = before ++ look :: rest
        ∧ (∀ l ∈ before, l.cancelled = false ∧ (∀ d ∈ l.devices, ¬d.BeginsWith path)
          ∧ l.key = .other)
        ∧ look.cancelled = false ∧ ∃ d ∈ look.devices, d.BeginsWith path := by
  refine ⟨fun devices => ⟨isListed_iff hpath devices, ?_, fun hexact => ?_⟩, fun looks rest => ?_⟩
  · rintro ⟨d, hd, rfl⟩
    exact (isListed_iff hpath devices).mpr ⟨d, hd, List.prefix_rfl⟩
  · rw [isListed_iff hpath]
    constructor
    · rintro ⟨d, hd, hbegins⟩
      exact ⟨d, hd, hexact d hd hbegins⟩
    · rintro ⟨d, hd, rfl⟩
      exact ⟨d, hd, List.prefix_rfl⟩
  · simp only [wait_eq_some_iff, outcome?_eq_none_iff hpath, outcome?_eq_ready_iff hpath]

/-- With only a device of a longer name connected, the wait ends at once and the path is
taken for a port. -/
example :
    let devices : List Device := [⟨"/dev/ttyUSB10", some ⟨some "FTDI", some "FT232R"⟩⟩]
    (∀ d ∈ devices, d.name ≠ "/dev/ttyUSB1")
      ∧ resolve (some "/dev/ttyUSB1") [{ devices }] = some (.ok "/dev/ttyUSB1") :=
  ⟨by decide, rfl⟩

end Port

end BoardFlash
