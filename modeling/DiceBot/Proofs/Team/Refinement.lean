import DiceBot.Proofs.Team.Holding

/-!
A database answers every run of lookups and saves as a memory does, and both answer with the last
credentials that were saved for a team and the time of the first ones.
-/

namespace DiceBot.Team

variable {τ : Type}

/-- What a store is asked. -/
inductive Call where
  | find (id : Id)
  | save (c : Credentials)

inductive Answer where
  | found (result : Except StoreError (Option Credentials))
  | saved (result : Except StoreError Saved)

namespace Store

def answer (store : Store τ) : Call → τ → Answer × τ
  | .find id, t => (.found (store.find id t), t)
  | .save c, t => (.saved (store.save c t).1, (store.save c t).2)

/-- The answers to one call after the other. -/
def run (store : Store τ) : List Call → τ → List Answer × τ
  | [], t => ([], t)
  | call :: calls, t =>
    let (answer, t) := store.answer call t
    let (answers, t) := store.run calls t
    (answer :: answers, t)

theorem run_cons (store : Store τ) (call : Call) (calls : List Call) (t : τ) :
    store.run (call :: calls) t =
      ((store.answer call t).1 :: (store.run calls (store.answer call t).2).1,
        (store.run calls (store.answer call t).2).2) := rfl

end Store

/-- The credentials that calls save for a team, in their order. -/
def saves (id : Id) (calls : List Call) : List Credentials :=
  calls.filterMap fun
    | .save c => if c.team = id then some c else none
    | .find _ => none

/-- The last credentials that calls save for a team, with the time of the first ones. -/
def kept (id : Id) (calls : List Call) : Option Credentials :=
  match (saves id calls).head?, (saves id calls).getLast? with
  | some first, some last => some { last with addedAt := first.addedAt }
  | _, _ => none

/-- The answer that earlier calls make due: credentials as they are kept, and whether a save is the
first of its team. -/
def due (earlier : List Call) : Call → Answer
  | .find id => .found (.ok (kept id earlier))
  | .save c => .saved (.ok (if saves c.team earlier = [] then .inserted else .updated))

theorem saves_snoc_find (id id' : Id) (calls : List Call) :
    saves id (calls ++ [.find id']) = saves id calls := by
  simp [saves]

theorem saves_snoc_save (id : Id) (c : Credentials) (calls : List Call) :
    saves id (calls ++ [.save c]) =
      if c.team = id then saves id calls ++ [c] else saves id calls := by
  by_cases h : c.team = id <;> simp [saves, h]

theorem kept_of_saves_nil {id : Id} {calls : List Call} (h : saves id calls = []) :
    kept id calls = none := by
  simp [kept, h]

theorem kept_of_saves_cons {id : Id} {calls : List Call} {first : Credentials}
    {rest : List Credentials} (h : saves id calls = first :: rest) :
    kept id calls = some { (first :: rest).getLast (List.cons_ne_nil _ _) with
      addedAt := first.addedAt } := by
  simp only [kept, h, List.head?_cons, List.getLast?_eq_some_getLast (List.cons_ne_nil first rest)]

theorem kept_eq_none_iff {id : Id} {calls : List Call} :
    kept id calls = none ↔ saves id calls = [] := by
  cases h : saves id calls with
  | nil => simp [kept_of_saves_nil h]
  | cons first rest => simp [kept_of_saves_cons h]

theorem kept_snoc_find (id id' : Id) (calls : List Call) :
    kept id (calls ++ [.find id']) = kept id calls := by
  simp only [kept, saves_snoc_find]

/-- A save becomes the last one of its team, at the time of the first one. -/
theorem kept_snoc_save (id : Id) (c : Credentials) (calls : List Call) :
    kept id (calls ++ [.save c]) = if c.team = id
      then some { c with addedAt := ((kept c.team calls).map Credentials.addedAt).getD c.addedAt }
      else kept id calls := by
  have hs := saves_snoc_save id c calls
  split
  · next hid =>
    subst hid
    rw [if_pos rfl] at hs
    cases h : saves c.team calls with
    | nil =>
      rw [h] at hs
      rw [kept_of_saves_cons hs, kept_of_saves_nil h]
      rfl
    | cons first rest =>
      rw [h] at hs
      rw [kept_of_saves_cons hs, kept_of_saves_cons h]
      simp
  · next hid =>
    rw [if_neg hid] at hs
    simp only [kept, hs]

namespace Memory

/-- A memory holds what calls save. -/
def Keeps (rows : List Credentials) (calls : List Call) : Prop :=
  ∀ id, find id rows = kept id calls

theorem keeps_nil : Keeps [] [] := fun _ => rfl

theorem Keeps.find {rows : List Credentials} {calls : List Call} (h : Keeps rows calls) (id : Id) :
    Keeps rows (calls ++ [.find id]) := by
  intro id'
  rw [h id', kept_snoc_find]

theorem Keeps.save {rows : List Credentials} {calls : List Call} (h : Keeps rows calls)
    (c : Credentials) : Keeps (save c rows).2 (calls ++ [.save c]) := by
  intro id
  rw [find_save, kept_snoc_save, h c.team, h id]

theorem Keeps.saved {rows : List Credentials} {calls : List Call} (h : Keeps rows calls)
    (c : Credentials) :
    (Memory.save c rows).1 = if saves c.team calls = [] then .inserted else .updated := by
  unfold Memory.save
  rw [h c.team]
  cases hk : kept c.team calls with
  | none => rw [if_pos (kept_eq_none_iff.mp hk)]
  | some earlier =>
    have hn : saves c.team calls ≠ [] := fun hs => by
      cases hk.symm.trans (kept_eq_none_iff.mpr hs)
    rw [if_neg hn]

/-- A memory gives the answer that is due, and keeps what the next one asks for. -/
theorem Keeps.answer {rows : List Credentials} {calls : List Call} (h : Keeps rows calls)
    (call : Call) : (store.answer call rows).1 = due calls call ∧
      Keeps (store.answer call rows).2 (calls ++ [call]) := by
  cases call with
  | find id => exact ⟨congrArg (fun c => Answer.found (.ok c)) (h id), h.find id⟩
  | save c => exact ⟨congrArg (fun s => Answer.saved (.ok s)) (h.saved c), h.save c⟩

theorem Keeps.run {rows : List Credentials} {earlier : List Call} (h : Keeps rows earlier)
    (calls : List Call) :
    (∀ n call, calls[n]? = some call →
      (store.run calls rows).1[n]? = some (due (earlier ++ calls.take n) call)) ∧
    Keeps (store.run calls rows).2 (earlier ++ calls) := by
  -- Each call that is answered becomes one of the earlier ones.
  induction calls generalizing rows earlier with
  | nil =>
    refine ⟨?_, ?_⟩
    · intro n call hn
      cases hn
    · rw [List.append_nil]
      exact h
  | cons call calls ih =>
    obtain ⟨hd, hk⟩ := h.answer call
    obtain ⟨hrest, hlast⟩ := ih hk
    rw [Store.run_cons]
    refine ⟨?_, ?_⟩
    · intro n call' hn
      cases n with
      | zero =>
        cases hn
        rw [List.take_zero, List.append_nil, ← hd]
        rfl
      | succ n =>
        rw [List.take_succ_cons, List.append_cons]
        exact hrest n call' hn
    · rw [List.append_cons]
      exact hlast

end Memory

namespace Vault

/-- A database answers a call as the memory that it mirrors, and mirrors it afterwards. -/
theorem Mirrors.answer {v : Vault} {memory : List Credentials} (h : v.Mirrors memory) {call : Call}
    (hc : ∀ c, call = .save c → Dated c) :
    (Vault.store.answer call v).1 = (Memory.store.answer call memory).1 ∧
      (Vault.store.answer call v).2.Mirrors (Memory.store.answer call memory).2 := by
  cases call with
  | find id => exact ⟨congrArg Answer.found (h.find_eq id), h⟩
  | save c =>
    obtain ⟨hs, hm⟩ := h.save (hc c rfl)
    exact ⟨congrArg Answer.saved hs, hm⟩

theorem Mirrors.run {v : Vault} {memory : List Credentials} (h : v.Mirrors memory)
    {calls : List Call} (hc : ∀ c, .save c ∈ calls → Dated c) :
    (Vault.store.run calls v).1 = (Memory.store.run calls memory).1 ∧
      (Vault.store.run calls v).2.Mirrors (Memory.store.run calls memory).2 := by
  induction calls generalizing v memory with
  | nil => exact ⟨rfl, h⟩
  | cons call calls ih =>
    obtain ⟨ha, hm⟩ := h.answer fun c he => hc c (he ▸ List.mem_cons_self)
    obtain ⟨hrest, hlast⟩ := ih hm fun c hm => hc c (List.mem_cons_of_mem _ hm)
    rw [Store.run_cons, Store.run_cons, ha, hrest]
    exact ⟨rfl, hlast⟩

/-- A database that was just migrated answers every run of calls as an empty memory does. A team is
inserted by its first save and updated by every later one, it is found with what the last save
brought and the time of the first, and a save leaves what is found of other teams. -/
theorem refines_memory (passphrase : String) (nonces : Nat → List UInt8)
    (hn : ∀ n, (nonces n).length = SealKey.nonceLength) (calls : List Call)
    (hc : ∀ c, .save c ∈ calls → Dated c) :
    let vault : Vault := ⟨Database.State.new.migrate.2, .ofPassphrase passphrase, nonces, 0⟩
    let inVault := Vault.store.run calls vault
    let inMemory := Memory.store.run calls []
    inVault.1 = inMemory.1 ∧
    (∀ n call, calls[n]? = some call → inMemory.1[n]? = some (due (calls.take n) call)) ∧
    ∀ c id, Dated c → c.team ≠ id →
      Vault.store.find id (Vault.store.save c inVault.2).2 = Vault.store.find id inVault.2 ∧
      Memory.store.find id (Memory.store.save c inMemory.2).2 =
        Memory.store.find id inMemory.2 := by
  intro vault inVault inMemory
  have hv : vault.Mirrors [] := mirrors_migrated rfl (SealKey.ofPassphrase_fits passphrase) hn
  obtain ⟨hanswers, hm⟩ := hv.run hc
  refine ⟨hanswers, (Memory.keeps_nil.run calls).1, ?_⟩
  intro c id hd hid
  have hother : Memory.find id (Memory.save c inMemory.2).2 = Memory.find id inMemory.2 := by
    rw [Memory.find_save, if_neg hid]
  constructor
  · change Vault.find id (Vault.save c inVault.2).2 = Vault.find id inVault.2
    rw [(hm.save hd).2.find_eq id, hm.find_eq id, hother]
  · exact congrArg Except.ok hother

/-- A team that is installed twice, with 120 milliseconds in the second time. -/
theorem refines_memory_twice :
    let first : Credentials := ⟨⟨"T9"⟩, "xoxp-a", "B1", "xoxb-a", ⟨1714564800, 0⟩, ⟨1714564800, 0⟩⟩
    let second : Credentials :=
      ⟨⟨"T9"⟩, "xoxp-b", "B2", "xoxb-b", ⟨1714568400, 120000000⟩, ⟨1714568400, 120000000⟩⟩
    let calls : List Call := [.save first, .save second, .find ⟨"T9"⟩, .find ⟨"T8"⟩]
    let vault : Vault :=
      ⟨Database.State.new.migrate.2, .ofPassphrase "key", fun _ => List.replicate 12 0, 0⟩
    (∀ n, (vault.nonces n).length = SealKey.nonceLength) ∧ (∀ c, .save c ∈ calls → Dated c) ∧
    (Vault.store.run calls vault).1 = [.saved (.ok .inserted), .saved (.ok .updated),
      .found (.ok (some { second with addedAt := ⟨1714564800, 0⟩ })), .found (.ok none)] := by
  intro first second calls vault
  have hn : ∀ n, (vault.nonces n).length = SealKey.nonceLength := fun _ => rfl
  have hfirst : (⟨1714564800, 0⟩ : Time.Instant).Dated :=
    ⟨by decide +kernel, by decide +kernel, .inl (by decide)⟩
  have hsecond : (⟨1714568400, 120000000⟩ : Time.Instant).Dated :=
    ⟨by decide +kernel, by decide +kernel, .inl (by decide)⟩
  have hc : ∀ c, .save c ∈ calls → Dated c := by
    intro c h
    have h : c = first ∨ c = second := by simpa [calls] using h
    rcases h with rfl | rfl
    · exact ⟨hfirst, hfirst⟩
    · exact ⟨hsecond, hsecond⟩
  obtain ⟨hanswers, -⟩ := refines_memory "key" vault.nonces hn calls hc
  exact ⟨hn, hc, hanswers.trans rfl⟩

end Vault
end DiceBot.Team
