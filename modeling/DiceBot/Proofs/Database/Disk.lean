import DiceBot.Database.Disk

/-!
Databases in files: what is kept in one is found there again, and other files stay as they are.
-/

namespace DiceBot.Database

namespace Disk

variable {d : Disk} {name path : String}

theorem resolve_put (d : Disk) (name : String) (s : State) :
    (d.put name s).resolve = d.resolve := by
  unfold put
  split <;> rfl

theorem slot_put (hpath : d.resolve name = some path) (s : State) :
    (d.put name s).slot name = .holds s := by
  simp [put, slot, hpath]

theorem slot_put_of_ne (h : d.resolve path ≠ d.resolve name) (s : State) :
    (d.put name s).slot path = d.slot path := by
  unfold put
  cases hname : d.resolve name with
  | none => rfl
  | some file =>
    unfold slot
    cases hpath : d.resolve path with
    | none => rfl
    | some file' =>
      have hne : file' ≠ file := fun he => h (by rw [hname, hpath, he])
      simp [List.lookup_cons, beq_false_of_ne hne]

/-- Keeping a database leaves a file as it is, or puts the database there. -/
theorem slot_keepAt (d : Disk) (l : Location) (s : State) (path : String) :
    (d.keepAt l s).slot path = d.slot path ∨ (d.keepAt l s).slot path = .holds s := by
  unfold keepAt
  cases l.target with
  | memory => exact .inl rfl
  | file name =>
    by_cases h : d.resolve path = d.resolve name
    · cases hname : d.resolve name with
      | none => exact .inl (by simp only [put, hname])
      | some file => exact .inr (by simp [put, slot, hname, h])
    · exact .inl (slot_put_of_ne h s)

theorem connect_eq_ok_iff {url : String} {l : Location} {s : State} :
    d.connect url = .ok (l, s) ↔ Location.ofUrl url = .ok l ∧ d.openAt l = .ok s := by
  unfold connect
  cases Location.ofUrl url with
  | error e => simp
  | ok l' =>
    constructor
    · intro h
      cases hopen : d.openAt l' with
      | error e => simp [hopen, Except.map] at h
      | ok s' =>
        simp only [hopen, Except.map, Except.ok.injEq, Prod.mk.injEq] at h
        obtain ⟨rfl, rfl⟩ := h
        exact ⟨rfl, hopen⟩
    · rintro ⟨hl, hopen⟩
      cases hl
      simp [hopen, Except.map]

/-- A database that is kept in a file is opened there again. -/
theorem connect_put {url : String} {l : Location} {s : State} (h : d.connect url = .ok (l, s))
    (hfile : l.target = .file name) (s' : State) :
    (d.put name s').connect url = .ok (l, s') := by
  obtain ⟨hl, hopen⟩ := connect_eq_ok_iff.mp h
  refine connect_eq_ok_iff.mpr ⟨hl, ?_⟩
  cases hpath : d.resolve name with
  | none => simp [openAt, hfile, slot, hpath] at hopen
  | some path => simp only [openAt, hfile, slot_put hpath]

end Disk
end DiceBot.Database
