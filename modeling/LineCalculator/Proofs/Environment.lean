import LineCalculator.Environment
/-! # Looking names up

* `Binding.find?_perm`: in which order the bindings stand does not matter.
* `Binding.find?_overwrite`: after some bindings were put in, the last one of a name counts.
* `Environment.lookup`: the value of a name, zero for one that is not bound.
* `Environment.isName_of_contains`: only names are bound.
* `Environment.ext_get?`: an environment is given by the values of its names.
* `Environment.insert_comm`: of two names it does not matter which is bound first.
* `Environment.SameNames`: two environments bind the same names, to whatever values.
-/

namespace LineCalculator
set_option autoImplicit false

namespace Binding
variable {name : String} {l : List Binding}

theorem exists_mem_of_find? {x : Float} (h : find? name l = some x) : (name, x) ∈ l := by
  induction l with
  | nil => cases h
  | cons b rest ih =>
    rw [find?] at h
    split at h
    · rename_i hb
      cases h
      rw [← hb]
      exact List.mem_cons_self
    · exact List.mem_cons_of_mem b (ih h)

theorem find?_cons (name : String) (b : Binding) (l : List Binding) :
    find? name (b :: l) = (find? name [b]).or (find? name l) := by
  simp only [find?]
  split
  · rfl
  · rfl

theorem find?_append (name : String) (k l : List Binding) :
    find? name (k ++ l) = (find? name k).or (find? name l) := by
  induction k with
  | nil => rfl
  | cons b k ih => rw [List.cons_append, find?_cons, ih, find?_cons name b k, Option.or_assoc]

theorem find?_insert (name : String) (b : Binding) (l : List Binding) :
    find? name (insert b l) = (find? name [b]).or (find? name l) := by
  induction l with
  | nil => simp [insert, find?]
  | cons a rest ih =>
    rw [insert]
    split
    · exact find?_cons name b (a :: rest)
    split
    · rename_i he
      rw [find?_cons name b rest, find?_cons name a rest]
      by_cases hb : b.1 = name
      · simp [find?, hb]
      · simp [find?, hb, ← he]
    · rename_i he
      rw [find?_cons, ih, find?_cons name a rest]
      by_cases ha : a.1 = name
      · have hb : ¬ b.1 = name := fun hb => he (hb.trans ha.symm)
        simp [find?, ha, hb]
      · simp [find?, ha]

/-- Where no name stands twice the value of a name is in the one binding of it. -/
theorem find?_eq_some_iff {x : Float} (hl : l.Pairwise fun a b => a.1 ≠ b.1) :
    find? name l = some x ↔ (name, x) ∈ l := by
  refine ⟨exists_mem_of_find?, fun hm => ?_⟩
  induction l with
  | nil => cases hm
  | cons b rest ih =>
    obtain ⟨hb, hrest⟩ := List.pairwise_cons.1 hl
    rw [find?]
    rcases List.mem_cons.1 hm with rfl | hm
    · rw [if_pos rfl]
    · rw [if_neg (hb _ hm), ih hrest hm]

theorem find?_eq_none (h : ∀ b ∈ l, b.1 ≠ name) : find? name l = none := by
  cases hf : find? name l with
  | none => rfl
  | some x => exact absurd rfl (h _ (exists_mem_of_find? hf))

theorem find?_perm {l' : List Binding} (h : l.Perm l') (hl : l.Pairwise fun a b => a.1 ≠ b.1) :
    find? name l = find? name l' := by
  have hl' : l'.Pairwise fun a b => a.1 ≠ b.1 := h.pairwise hl Ne.symm
  ext x
  rw [find?_eq_some_iff hl, find?_eq_some_iff hl', h.mem_iff]

/-- The bindings with others put in, one after the other. -/
def overwrite (l new : List Binding) : List Binding := new.foldl (fun l b => insert b l) l

theorem overwrite_append (l new new' : List Binding) :
    overwrite l (new ++ new') = overwrite (overwrite l new) new' := List.foldl_append

theorem find?_overwrite (name : String) (l new : List Binding) :
    find? name (overwrite l new) = (find? name new.reverse).or (find? name l) := by
  induction new generalizing l with
  | nil => rfl
  | cons b new ih =>
    have h : overwrite l (b :: new) = overwrite (insert b l) new := rfl
    rw [h, ih, find?_insert, List.reverse_cons, find?_append, Option.or_assoc]

end Binding

namespace Environment
variable {env : Environment} {name : String}

/-- The value of a name, zero for a name that is not bound. -/
def lookup (env : Environment) (name : String) : Float := (env.get? name).getD 0

theorem get?_eq_some_lookup (h : env.contains name = true) :
    env.get? name = some (env.lookup name) := by
  obtain ⟨x, hx⟩ := Option.isSome_iff_exists.1 h
  simp [lookup, hx]

theorem lookup_eq {x : Float} (h : env.get? name = some x) : env.lookup name = x := by
  simp [lookup, h]

theorem get?_eq_none (h : env.contains name = false) : env.get? name = none :=
  Option.not_isSome_iff_eq_none.1 (by simpa [contains] using h)

theorem pairwise_ne (env : Environment) : env.bindings.Pairwise fun a b => a.1 ≠ b.1 := by
  refine env.ascending.imp fun {a b} h he => ?_
  rw [he] at h
  exact String.lt_irrefl b.1 h

theorem isName_of_contains (h : env.contains name = true) : IsName name :=
  env.named _ (Binding.exists_mem_of_find? (get?_eq_some_lookup h))

theorem contains_of_get? {x : Float} (h : env.get? name = some x) : env.contains name = true := by
  rw [contains, h]
  rfl

theorem get?_eq_none_of_not_isName (h : ¬ IsName name) : env.get? name = none :=
  get?_eq_none (Bool.eq_false_iff.2 fun hb => h (isName_of_contains hb))

theorem get?_insert_self (h : IsName name) (value : Float) :
    (env.insert name h value).get? name = some value := by
  rw [get?, insert, Binding.find?_insert, Binding.find?, if_pos rfl]
  rfl

theorem get?_insert_of_ne {other : String} (h : IsName name) (value : Float) (hne : name ≠ other) :
    (env.insert name h value).get? other = env.get? other := by
  rw [get?, insert, Binding.find?_insert, Binding.find?, if_neg hne]
  rfl

theorem mem_bindings_iff {x : Float} : (name, x) ∈ env.bindings ↔ env.get? name = some x :=
  (Binding.find?_eq_some_iff env.pairwise_ne).symm

/-! ## Equality -/

theorem nodup (env : Environment) : env.bindings.Nodup :=
  env.pairwise_ne.imp fun h he => h (congrArg Prod.fst he)

theorem ext_get? {env env' : Environment} (h : ∀ name, env.get? name = env'.get? name) :
    env = env' := by
  have hmem : ∀ b : Binding, b ∈ env.bindings ↔ b ∈ env'.bindings := by
    rintro ⟨name, x⟩
    rw [mem_bindings_iff, mem_bindings_iff, h]
  have hperm : env.bindings.Perm env'.bindings :=
    (List.perm_ext_iff_of_nodup env.nodup env'.nodup).2 hmem
  have heq : env.bindings = env'.bindings :=
    hperm.eq_of_pairwise (fun a b _ _ hab hba => absurd hba (String.lt_asymm hab))
      env.ascending env'.ascending
  cases env
  cases env'
  cases heq
  rfl

theorem insert_comm {other : String} (hname : IsName name) (hother : IsName other)
    (hne : name ≠ other) (x y : Float) :
    (env.insert name hname x).insert other hother y =
      (env.insert other hother y).insert name hname x := by
  refine ext_get? fun a => ?_
  by_cases ha : name = a
  · cases ha
    rw [get?_insert_of_ne hother y hne.symm, get?_insert_self, get?_insert_self]
  by_cases ho : other = a
  · cases ho
    rw [get?_insert_self, get?_insert_of_ne hname x hne, get?_insert_self]
  · rw [get?_insert_of_ne hother y ho, get?_insert_of_ne hname x ha,
      get?_insert_of_ne hname x ha, get?_insert_of_ne hother y ho]

/-! ## The same names -/

theorem contains_of_mem {b : Binding} (h : b ∈ env.bindings) : env.contains b.1 = true :=
  contains_of_get? ((Binding.find?_eq_some_iff env.pairwise_ne).2 h)

/-- The same names are bound. -/
def SameNames (env env' : Environment) : Prop := ∀ name, env.contains name = env'.contains name

theorem SameNames.symm {env env' : Environment} (h : SameNames env env') : SameNames env' env :=
  fun name => (h name).symm

theorem sameNames_iff {env env' : Environment} : SameNames env env' ↔
    (∀ b ∈ env.bindings, env'.contains b.1 = true) ∧
      ∀ b ∈ env'.bindings, env.contains b.1 = true := by
  refine ⟨fun h => ⟨fun b hb => ?_, fun b hb => ?_⟩, fun ⟨h, h'⟩ name => ?_⟩
  · rw [← h b.1, contains_of_mem hb]
  · rw [h b.1, contains_of_mem hb]
  · apply Bool.eq_iff_iff.2
    constructor
    · intro hn
      exact h _ (Binding.exists_mem_of_find? (get?_eq_some_lookup hn))
    · intro hn
      exact h' _ (Binding.exists_mem_of_find? (get?_eq_some_lookup hn))

/-- The names stand in the same order then. -/
theorem SameNames.map_fst_eq {env env' : Environment} (h : SameNames env env') :
    env.bindings.map Prod.fst = env'.bindings.map Prod.fst := by
  have hmem (e : Environment) (name : String) :
      name ∈ e.bindings.map Prod.fst ↔ e.contains name = true := by
    constructor
    · intro hn
      obtain ⟨b, hb, rfl⟩ := List.mem_map.1 hn
      exact contains_of_mem hb
    · intro hn
      exact List.mem_map.2 ⟨_, Binding.exists_mem_of_find? (get?_eq_some_lookup hn), rfl⟩
  have hascending (e : Environment) : (e.bindings.map Prod.fst).Pairwise (· < ·) :=
    List.pairwise_map.2 e.ascending
  have hnodup (e : Environment) : (e.bindings.map Prod.fst).Nodup :=
    List.pairwise_map.2 e.pairwise_ne
  have hperm := (List.perm_ext_iff_of_nodup (hnodup env) (hnodup env')).2 fun name => by
    rw [hmem, hmem, h name]
  refine hperm.eq_of_pairwise (fun a b _ _ hab hba => ?_) (hascending env) (hascending env')
  exact absurd hba (String.lt_asymm hab)

instance decidableSameNames (env env' : Environment) : Decidable (SameNames env env') :=
  decidable_of_iff' _ sameNames_iff

end Environment

end LineCalculator
