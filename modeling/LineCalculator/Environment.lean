import LineCalculator.Error
/-! # Environments

An environment binds names to doubles. A name is a non-empty run of ASCII letters; the bindings
stand in the order of their names, code point by code point, and no name stands twice.

* `IsName`: which strings are names.
* `Environment`: the bindings with these two invariants.
* `get?`, `contains`, `size`: what is bound; `set?` binds a string if it is a name.
* `standard`: the environment of the constants; `empty`: no bindings.
* `agrees`: the same names with equal values, as doubles compare.
-/

namespace LineCalculator
set_option autoImplicit false

/-- A non-empty run of ASCII letters. -/
def IsName (s : String) : Prop := s.toList ≠ [] ∧ ∀ c ∈ s.toList, c.isAlpha = true

instance : DecidablePred IsName := fun s =>
  @instDecidableAnd _ _ inferInstance (List.decidableBAll (fun c => c.isAlpha = true) s.toList)

/-- A name with its value. -/
abbrev Binding := String × Float

namespace Binding

/-- Puts a binding in its place, in the stead of an earlier one of the same name. -/
def insert (b : Binding) : List Binding → List Binding
  | [] => [b]
  | a :: rest =>
    if b.1 < a.1 then b :: a :: rest
    else if b.1 = a.1 then b :: rest
    else a :: insert b rest

theorem eq_or_mem_of_mem_insert {b x : Binding} {l : List Binding} (h : x ∈ insert b l) :
    x = b ∨ x ∈ l := by
  induction l with
  | nil => simpa [insert] using h
  | cons a rest ih =>
    simp only [insert] at h
    split at h
    · simpa using h
    · split at h
      · rcases List.mem_cons.1 h with h | h
        · exact .inl h
        · exact .inr (List.mem_cons_of_mem a h)
      · rcases List.mem_cons.1 h with h | h
        · exact .inr (h ▸ List.mem_cons_self)
        · exact (ih h).imp id (List.mem_cons_of_mem a)

theorem pairwise_insert {b : Binding} {l : List Binding}
    (h : l.Pairwise fun x y => x.1 < y.1) : (insert b l).Pairwise fun x y => x.1 < y.1 := by
  induction l with
  | nil => simp [insert]
  | cons a rest ih =>
    obtain ⟨ha, hrest⟩ := List.pairwise_cons.1 h
    simp only [insert]
    split
    · rename_i hb
      refine List.pairwise_cons.2 ⟨fun x hx => ?_, h⟩
      rcases List.mem_cons.1 hx with rfl | hx
      · exact hb
      · exact String.lt_trans hb (ha x hx)
    · rename_i hb
      split
      · rename_i he
        exact List.pairwise_cons.2 ⟨fun x hx => he ▸ ha x hx, hrest⟩
      · rename_i he
        refine List.pairwise_cons.2 ⟨fun x hx => ?_, ih hrest⟩
        rcases eq_or_mem_of_mem_insert hx with rfl | hx
        · exact Decidable.byContradiction fun hn =>
            he (String.le_antisymm (String.not_lt.1 hn) (String.not_lt.1 hb))
        · exact ha x hx

/-- The value of the first binding of a name. -/
def find? (name : String) : List Binding → Option Float
  | [] => none
  | b :: rest => if b.1 = name then some b.2 else find? name rest

end Binding

/-- Bindings of names, in the order of the names. -/
structure Environment where
  bindings : List Binding
  named : ∀ b ∈ bindings, IsName b.1
  ascending : bindings.Pairwise fun a b => a.1 < b.1

namespace Environment

/-- No bindings. -/
def empty : Environment := ⟨[], by simp, .nil⟩

/-- The value of a name. -/
def get? (env : Environment) (name : String) : Option Float := Binding.find? name env.bindings

def contains (env : Environment) (name : String) : Bool := (env.get? name).isSome

/-- The number of bindings. -/
def size (env : Environment) : Nat := env.bindings.length

def isEmpty (env : Environment) : Bool := env.bindings.isEmpty

/-- Binds a name, in the stead of its earlier value. -/
def insert (env : Environment) (name : String) (h : IsName name) (value : Float) : Environment where
  bindings := Binding.insert (name, value) env.bindings
  named b hb := by
    rcases Binding.eq_or_mem_of_mem_insert hb with rfl | hb
    · exact h
    · exact env.named b hb
  ascending := Binding.pairwise_insert env.ascending

/-- Binds a string if it is a name, and tells its earlier value. -/
def set? (env : Environment) (name : String) (value : Float) :
    Except LineError (Option Float × Environment) :=
  if h : IsName name then .ok (env.get? name, env.insert name h value)
  else .error (.invalidName name)

/-- The constants that a fresh environment starts with: the two of mathematics, and the
gravitational constant in cubic metres per kilogram and square second. -/
def constants : List Binding :=
  [("PI", 3.141592653589793), ("E", 2.718281828459045), ("G", 6.6743e-11)]

/-- The environment with the given bindings, the last one of each name counting. A binding of a
string that is no name is left out. -/
def ofList (bindings : List Binding) : Environment :=
  bindings.foldl (fun env b => if h : IsName b.1 then env.insert b.1 h b.2 else env) empty

/-- The environment of the constants. -/
def standard : Environment := ofList constants

/-- Whether the same names are bound to equal values. As doubles compare, NaN equals nothing and
the two zeros equal each other. -/
def agrees (a b : Environment) : Bool :=
  a.bindings.length = b.bindings.length &&
    (a.bindings.zip b.bindings).all fun p => p.1.1 = p.2.1 && p.1.2 == p.2.2

end Environment

end LineCalculator
