/-! The variables of a running program and their values, ordered by name. A
variable has the value it was given last, and environments in which all
variables have the same values are equal. -/
namespace Crafter

/-- Bindings of names to numbers, each name once and the names ascending. -/
structure Environment where
  entries : List (String × Float)
  ascending : entries.Pairwise fun a b => a.1 < b.1

namespace Environment

def empty : Environment := ⟨[], .nil⟩

instance : Inhabited Environment := ⟨empty⟩

def lookupEntries (name : String) : List (String × Float) → Option Float
  | [] => none
  | (key, value) :: rest => if key = name then some value else lookupEntries name rest

def get? (env : Environment) (name : String) : Option Float :=
  lookupEntries name env.entries

def insertEntry (name : String) (value : Float) : List (String × Float) → List (String × Float)
  | [] => [(name, value)]
  | (key, old) :: rest =>
    if name < key then (name, value) :: (key, old) :: rest
    else if name = key then (name, value) :: rest
    else (key, old) :: insertEntry name value rest

theorem eq_or_mem_of_mem_insertEntry {name : String} {value : Float} {e : String × Float}
    {entries : List (String × Float)} (h : e ∈ insertEntry name value entries) :
    e.1 = name ∨ e ∈ entries := by
  fun_induction insertEntry name value entries with
  | case1 => exact Or.inl (by rw [List.mem_singleton.mp h])
  | case2 =>
    rcases List.mem_cons.mp h with rfl | h
    · exact Or.inl rfl
    · exact Or.inr h
  | case3 =>
    rcases List.mem_cons.mp h with rfl | h
    · exact Or.inl rfl
    · exact Or.inr (List.mem_cons_of_mem _ h)
  | case4 key old rest _ _ ih =>
    rcases List.mem_cons.mp h with rfl | h
    · exact Or.inr List.mem_cons_self
    · exact (ih h).imp_right (List.mem_cons_of_mem _)

theorem pairwise_insertEntry {name : String} {value : Float} {entries : List (String × Float)}
    (h : entries.Pairwise fun a b => a.1 < b.1) :
    (insertEntry name value entries).Pairwise fun a b => a.1 < b.1 := by
  fun_induction insertEntry name value entries with
  | case1 => exact List.pairwise_singleton ..
  | case2 key old rest hlt =>
    refine List.pairwise_cons.mpr ⟨?_, h⟩
    intro e he
    rcases List.mem_cons.mp he with rfl | he
    · exact hlt
    · exact String.lt_trans hlt ((List.pairwise_cons.mp h).1 e he)
  | case3 => exact List.pairwise_cons.mpr (List.pairwise_cons.mp h)
  | case4 key old rest hlt hne ih =>
    obtain ⟨hkey, hrest⟩ := List.pairwise_cons.mp h
    refine List.pairwise_cons.mpr ⟨?_, ih hrest⟩
    intro e he
    rcases eq_or_mem_of_mem_insertEntry he with he | he
    · rw [he]
      exact Std.lt_of_le_of_ne (String.not_lt.mp hlt) (Ne.symm hne)
    · exact hkey e he

def insert (env : Environment) (name : String) (value : Float) : Environment :=
  ⟨insertEntry name value env.entries, pairwise_insertEntry env.ascending⟩

def ofList (bindings : List (String × Float)) : Environment :=
  bindings.foldl (fun env (name, value) => env.insert name value) empty

theorem lookupEntries_insertEntry (name other : String) (value : Float)
    (entries : List (String × Float)) :
    lookupEntries other (insertEntry name value entries) =
      if name = other then some value else lookupEntries other entries := by
  fun_induction insertEntry name value entries with
  | case1 => rfl
  | case2 => rfl
  | case3 old rest _ => by_cases ho : name = other <;> simp [lookupEntries, ho]
  | case4 key old rest _ hne ih =>
    by_cases hk : key = other
    · subst hk
      simp [lookupEntries, hne]
    · simp [lookupEntries, hk, ih]

theorem get?_insert (env : Environment) (name other : String) (value : Float) :
    (env.insert name value).get? other = if name = other then some value else env.get? other :=
  lookupEntries_insertEntry name other value env.entries

@[simp] theorem get?_empty (name : String) : empty.get? name = none := rfl

theorem lookupEntries_eq_none {name : String} {entries : List (String × Float)}
    (h : ∀ e ∈ entries, name < e.1) : lookupEntries name entries = none := by
  induction entries with
  | nil => rfl
  | cons e rest ih =>
    have hne : e.1 ≠ name := by
      intro he
      exact String.lt_irrefl _ (he ▸ h e List.mem_cons_self)
    rw [lookupEntries, if_neg hne]
    exact ih fun e he => h e (List.mem_cons_of_mem _ he)

/-- Of two lists with ascending names that have the same value for every name,
the second begins with the binding that the first begins with. -/
theorem head_eq_of_lookupEntries_eq {e f : String × Float} {l m : List (String × Float)}
    (hl : ∀ x ∈ l, e.1 < x.1) (hm : ∀ x ∈ m, f.1 < x.1)
    (h : ∀ name, lookupEntries name (e :: l) = lookupEntries name (f :: m)) : e = f := by
  have before {a b : String × Float} {k n : List (String × Float)} (hn : ∀ x ∈ n, b.1 < x.1)
      (h : ∀ name, lookupEntries name (a :: k) = lookupEntries name (b :: n)) : ¬ a.1 < b.1 := by
    intro hlt
    have hnone : lookupEntries a.1 (b :: n) = none := by
      apply lookupEntries_eq_none
      intro x hx
      rcases List.mem_cons.mp hx with rfl | hx
      · exact hlt
      · exact String.lt_trans hlt (hn x hx)
    rw [← h, lookupEntries, if_pos rfl] at hnone
    cases hnone
  have hkey : e.1 = f.1 :=
    String.le_antisymm (String.not_lt.mp (before hl fun name => (h name).symm))
      (String.not_lt.mp (before hm h))
  have hvalue := h e.1
  rw [lookupEntries, if_pos rfl, lookupEntries, if_pos hkey.symm] at hvalue
  exact Prod.ext hkey (Option.some.inj hvalue)

/-- Environments in which all variables have the same values are equal. -/
theorem ext_get? {a b : Environment} (h : ∀ name, a.get? name = b.get? name) : a = b := by
  obtain ⟨l, hl⟩ := a
  obtain ⟨m, hm⟩ := b
  suffices l = m by subst this; rfl
  change ∀ name, lookupEntries name l = lookupEntries name m at h
  induction l generalizing m with
  | nil =>
    cases m with
    | nil => rfl
    | cons f m => simpa [lookupEntries] using h f.1
  | cons e l ih =>
    cases m with
    | nil => simpa [lookupEntries] using h e.1
    | cons f m =>
      obtain ⟨hel, hrest⟩ := List.pairwise_cons.mp hl
      obtain ⟨hfm, hmrest⟩ := List.pairwise_cons.mp hm
      have hef := head_eq_of_lookupEntries_eq hel hfm h
      subst hef
      rw [ih hrest m hmrest ?_]
      intro name
      by_cases hname : e.1 = name
      · subst hname
        rw [lookupEntries_eq_none hel, lookupEntries_eq_none hfm]
      · have := h name
        rwa [lookupEntries, if_neg hname, lookupEntries, if_neg hname] at this

end Environment

end Crafter
