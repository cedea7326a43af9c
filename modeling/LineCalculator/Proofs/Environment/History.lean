import LineCalculator.Proofs.Environment
import Mathlib
/-! # Environments and their pasts

Environments are created, changed and copied in any order. What one of them binds is told by its own
past: a name has the value of the last accepted set of it since the last reset, else the value of
the constant of that name if the constants were put in, else none.

* `bytes_lt_bytes`: names in their order are in the order of their bytes.
* `Change`, `Environment.after`: a set or a reset, and the environment after it.
* `Past`, `Past.value?`: how an environment came about, and the map that its past tells.
* `Environment.Reflects`: every way to look at an environment agrees with a map.
* `reflects_environment`: an environment reflects its past.
* `Action`, `environments`, `pasts`: environments that are created, changed and copied side by side.
* `getElem?_foldl_act`: what is done to the others does not affect an environment.
* `environments_reflect_pasts`: both, for every history.
-/

namespace LineCalculator
set_option autoImplicit false

/-! ## Names in the order of their bytes -/

/-- The bytes in UTF-8. -/
def bytes (s : String) : List UInt8 := s.toByteArray.data.toList

theorem bytes_eq_flatMap (s : String) : bytes s = s.toList.flatMap String.utf8EncodeChar := by
  rw [bytes, ← String.utf8Encode_toList, List.utf8Encode, List.toList_data_toByteArray]

theorem toNat_lt_of_isAlpha {c : Char} (h : c.isAlpha = true) : c.val.toNat < 128 := by
  simp only [Char.isAlpha, Char.isUpper, Char.isLower, Bool.or_eq_true, Bool.and_eq_true,
    decide_eq_true_eq, UInt32.le_iff_toNat_le] at h
  have hc : c.toNat = c.val.toNat := rfl
  simp at h
  omega

/-- A letter is one byte. -/
theorem bytes_of_isAlpha {s : String} (h : ∀ c ∈ s.toList, c.isAlpha = true) :
    bytes s = s.toList.map fun c => UInt8.ofNat c.val.toNat := by
  rw [bytes_eq_flatMap, List.map_eq_flatMap]
  refine List.flatMap_congr fun c hc => ?_
  exact if_pos (Nat.le_of_lt_succ (toNat_lt_of_isAlpha (h c hc)))

theorem byte_lt_byte {c d : Char} (hd : d.isAlpha = true) (h : c < d) :
    UInt8.ofNat c.val.toNat < UInt8.ofNat d.val.toNat := by
  have hcd : c.val.toNat < d.val.toNat := UInt32.lt_iff_toNat_lt.1 h
  have hd := toNat_lt_of_isAlpha hd
  rw [UInt8.lt_iff_toNat_lt, UInt8.toNat_ofNat', UInt8.toNat_ofNat']
  omega

theorem bytes_lt_bytes {s t : String} (hs : IsName s) (ht : IsName t) (h : s < t) :
    bytes s < bytes t := by
  rw [bytes_of_isAlpha hs.2, bytes_of_isAlpha ht.2]
  have hlt : List.Lex (· < ·) s.toList t.toList := String.lt_iff_toList_lt.1 h
  have ht := ht.2
  generalize s.toList = l at hlt
  generalize t.toList = l' at hlt ht
  induction hlt with
  | nil => exact List.Lex.nil
  | cons _ ih => exact List.Lex.cons (ih (List.forall_mem_cons.1 ht).2)
  | rel hcd => exact List.Lex.rel (byte_lt_byte (List.forall_mem_cons.1 ht).1 hcd)

/-! ## One environment -/

/-- What may be done to an environment. -/
inductive Change where
  /-- Binds a name. -/
  | set (name : String) (value : Float)
  /-- Drops all bindings and binds the constants. -/
  | reset
deriving DecidableEq, Repr

namespace Environment

/-- The environment after a change. To set what is no name changes nothing. -/
def after (env : Environment) : Change → Environment
  | .set name value =>
    match env.set? name value with
    | .ok (_, env') => env'
    | .error _ => env
  | .reset => standard

/-- The environment at first, with or without the constants. -/
def initial (constants : Bool) : Environment := if constants then standard else empty

end Environment

/-- How an environment came about. -/
structure Past where
  /-- Whether it began with the constants. -/
  constants : Bool
  /-- The changes since, the latest one first. -/
  changes : List Change
deriving DecidableEq, Repr

/-- The value that a change sets a name to, if it is accepted. -/
def Change.accepted? (name : String) : Change → Option Float
  | .set other value => if other = name ∧ IsName other then some value else none
  | .reset => none

namespace Past

def environment (p : Past) : Environment :=
  p.changes.foldr (fun c env => env.after c) (.initial p.constants)

/-- The changes after the last reset, the latest one first. -/
def sinceReset (p : Past) : List Change := p.changes.takeWhile (· ≠ .reset)

/-- Whether the constants were put in, at the beginning or by a reset. -/
def hasConstants (p : Past) : Bool := p.constants || decide (.reset ∈ p.changes)

/-- The value of a name: that of the last accepted set since the last reset, else that of the
constant if the constants were put in. -/
def value? (p : Past) (name : String) : Option Float :=
  (p.sinceReset.findSome? (Change.accepted? name)).or
    (if p.hasConstants then Binding.find? name Environment.constants else none)

end Past

namespace Environment

/-- Whichever way the environment is looked at, it is the given map from names to values. -/
structure Reflects (env : Environment) (value? : String → Option Float) : Prop where
  named : ∀ b ∈ env.bindings, IsName b.1
  ascending : env.bindings.Pairwise fun a b => bytes a.1 < bytes b.1
  mem_bindings : ∀ name x, (name, x) ∈ env.bindings ↔ value? name = some x
  get? : ∀ name, env.get? name = value? name
  contains : ∀ name, env.contains name = (value? name).isSome
  size : env.size = {name | value? name ≠ none}.ncard
  isEmpty : env.isEmpty = true ↔ ∀ name, value? name = none
  set? : ∀ name x, env.set? name x =
    if IsName name then .ok (value? name, env.after (.set name x)) else .error (.invalidName name)
  after_set : ∀ name x, ¬ IsName name → env.after (.set name x) = env

variable {env : Environment} {name : String}

theorem after_set_of_isName (h : IsName name) (value : Float) :
    env.after (.set name value) = env.insert name h value := by
  rw [after, set?, dif_pos h]

theorem after_set_of_not_isName (h : ¬ IsName name) (value : Float) :
    env.after (.set name value) = env := by
  rw [after, set?, dif_neg h]

theorem set?_eq (env : Environment) (name : String) (value : Float) :
    env.set? name value =
      if IsName name then .ok (env.get? name, env.after (.set name value))
      else .error (.invalidName name) := by
  by_cases h : IsName name
  · rw [if_pos h, after_set_of_isName h, set?, dif_pos h]
  · rw [if_neg h, set?, dif_neg h]

theorem size_eq (env : Environment) : env.size = {name | env.get? name ≠ none}.ncard := by
  have hnodup : (env.bindings.map Prod.fst).Nodup :=
    List.pairwise_map.2 env.pairwise_ne
  have hset : {name | env.get? name ≠ none} = (env.bindings.map Prod.fst).toFinset := by
    ext name
    rw [Set.mem_ofPred_eq, Option.ne_none_iff_exists', Finset.mem_coe, List.mem_toFinset,
      List.mem_map]
    constructor
    · rintro ⟨x, hx⟩
      exact ⟨(name, x), mem_bindings_iff.2 hx, rfl⟩
    · rintro ⟨⟨_, x⟩, hb, rfl⟩
      exact ⟨x, mem_bindings_iff.1 hb⟩
  rw [hset, Set.ncard_coe_finset, List.toFinset_card_of_nodup hnodup, List.length_map]
  rfl

theorem isEmpty_iff : env.isEmpty = true ↔ ∀ name, env.get? name = none := by
  rw [isEmpty, List.isEmpty_iff]
  constructor
  · intro h name
    rw [get?, h]
    rfl
  · intro h
    apply List.eq_nil_iff_forall_not_mem.2
    rintro ⟨name, x⟩ hb
    rw [mem_bindings_iff, h] at hb
    cases hb

/-- An environment is the map that is got by looking names up in it. -/
theorem reflects_get? (env : Environment) : env.Reflects env.get? where
  named := env.named
  ascending := by
    refine env.ascending.imp_of_mem fun ha hb h => ?_
    exact bytes_lt_bytes (env.named _ ha) (env.named _ hb) h
  mem_bindings _ _ := mem_bindings_iff
  get? _ := rfl
  contains _ := rfl
  size := env.size_eq
  isEmpty := isEmpty_iff
  set? := env.set?_eq
  after_set _ x h := after_set_of_not_isName h x

/-! ## The map after a change -/

theorem get?_after_set (value : Float) (other : String) :
    (env.after (.set name value)).get? other =
      ((Change.set name value).accepted? other).or (env.get? other) := by
  by_cases hn : IsName name
  · rw [after_set_of_isName hn, Change.accepted?]
    by_cases he : name = other
    · subst he
      rw [get?_insert_self, if_pos ⟨rfl, hn⟩]
      rfl
    · rw [get?_insert_of_ne hn value he, if_neg fun h => he h.1]
      rfl
  · rw [after_set_of_not_isName hn, Change.accepted?, if_neg fun h => hn h.2]
    rfl

theorem get?_standard (name : String) :
    standard.get? name = Binding.find? name constants := by
  have hperm : standard.bindings.Perm constants := by decide +kernel
  exact Binding.find?_perm hperm standard.pairwise_ne

end Environment

namespace Past
variable {constants : Bool} {name : String} {c : Change} {changes : List Change}

theorem value?_nil : (Past.mk constants []).value? name =
    if constants then Binding.find? name Environment.constants else none := by
  rw [value?, hasConstants]
  simp [sinceReset]

theorem value?_reset : (Past.mk constants (.reset :: changes)).value? name =
    Binding.find? name Environment.constants := by
  simp [value?, sinceReset, hasConstants]

theorem value?_set {other : String} {value : Float} :
    (Past.mk constants (.set other value :: changes)).value? name =
      ((Change.set other value).accepted? name).or ((Past.mk constants changes).value? name) := by
  rw [value?, value?, ← Option.or_assoc]
  simp only [hasConstants, sinceReset, List.takeWhile_cons, List.mem_cons, reduceCtorEq, false_or,
    ne_eq, not_false_eq_true, decide_true, if_true, List.findSome?_cons]
  cases (Change.set other value).accepted? name with
  | none => rfl
  | some x => rfl

/-- The last change comes first in the past, so the induction is on the changes before it. -/
theorem get?_environment (p : Past) (name : String) : p.environment.get? name = p.value? name := by
  obtain ⟨constants, changes⟩ := p
  induction changes with
  | nil =>
    rw [value?_nil, environment, List.foldr_nil, Environment.initial]
    cases constants with
    | true => exact Environment.get?_standard name
    | false => rfl
  | cons c changes ih =>
    rw [environment, List.foldr_cons]
    cases c with
    | set other value => rw [value?_set, Environment.get?_after_set, ← ih, environment]
    | reset => rw [value?_reset, ← Environment.get?_standard, Environment.after]

end Past

theorem reflects_environment (p : Past) : p.environment.Reflects p.value? := by
  have hvalue : p.environment.get? = p.value? := funext p.get?_environment
  rw [← hvalue]
  exact p.environment.reflects_get?

/-! ## Environments side by side -/

/-- What is done to some environments, which are told apart by their numbers. -/
inductive Action where
  /-- A new environment, with or without the constants. -/
  | create (constants : Bool)
  /-- A change of one of them. -/
  | change (number : Nat) (c : Change)
  /-- A new environment with the bindings of another one. -/
  | clone (number : Nat)
deriving DecidableEq, Repr

/-- The number of the environment that an action changes. -/
def Action.changed? : Action → Option Nat
  | .change number _ => some number
  | _ => none

/-- The environments after an action. A new one gets the next number. -/
def act (envs : List Environment) : Action → List Environment
  | .create constants => envs ++ [.initial constants]
  | .change number c => envs.modify number fun env => env.after c
  | .clone number => envs ++ envs[number]?.toList

/-- The environments after some actions, there being none at first. -/
def environments (actions : List Action) : List Environment := actions.foldl act []

/-- The pasts after an action. A clone has the past of its original. -/
def Past.act (pasts : List Past) : Action → List Past
  | .create constants => pasts ++ [⟨constants, []⟩]
  | .change number c => pasts.modify number fun p => { p with changes := c :: p.changes }
  | .clone number => pasts ++ pasts[number]?.toList

def pasts (actions : List Action) : List Past := actions.foldl Past.act []

/-! ### One action -/

theorem act_map_environment (ps : List Past) (a : Action) :
    act (ps.map Past.environment) a = (Past.act ps a).map Past.environment := by
  cases a with
  | create constants =>
    rw [act, Past.act, List.map_append]
    rfl
  | change number c =>
    refine List.ext_getElem? fun i => ?_
    simp only [act, Past.act, List.getElem?_modify, List.getElem?_map]
    cases ps[i]? with
    | none => rfl
    | some p =>
      by_cases he : number = i
      · simp only [if_pos he]
        rfl
      · simp only [if_neg he]
        rfl
  | clone number =>
    rw [act, Past.act, List.map_append, List.getElem?_map]
    cases ps[number]? with
    | none => rfl
    | some p => rfl

theorem getElem?_act {envs : List Environment} {a : Action} {i : Nat} (hi : i < envs.length)
    (ha : a.changed? ≠ some i) : (act envs a)[i]? = envs[i]? := by
  cases a with
  | create constants => exact List.getElem?_append_left hi
  | change number c =>
    have hne : number ≠ i := fun he => ha (congrArg some he)
    exact List.getElem?_modify_ne (fun env => env.after c) envs hne
  | clone number => exact List.getElem?_append_left hi

theorem length_le_act (envs : List Environment) (a : Action) :
    envs.length ≤ (act envs a).length := by
  cases a with
  | create constants => simp [act]
  | change number c => simp [act]
  | clone number => simp [act]

/-! ### Runs -/

theorem environments_append (actions later : List Action) :
    environments (actions ++ later) = later.foldl act (environments actions) := List.foldl_append

theorem environments_eq_map (actions : List Action) :
    environments actions = (pasts actions).map Past.environment := by
  induction actions using List.reverseRecOn with
  | nil => rfl
  | append_singleton actions a ih =>
    rw [environments_append, List.foldl_cons, List.foldl_nil, ih, act_map_environment, pasts,
      pasts, List.foldl_append]
    rfl

theorem getElem?_foldl_act {envs : List Environment} {later : List Action} {i : Nat}
    (hi : i < envs.length) (hlater : ∀ a ∈ later, a.changed? ≠ some i) :
    (later.foldl act envs)[i]? = envs[i]? := by
  induction later generalizing envs with
  | nil => rfl
  | cons a later ih =>
    obtain ⟨ha, hlater⟩ := List.forall_mem_cons.1 hlater
    rw [List.foldl_cons, ih (hi.trans_le (length_le_act envs a)) hlater, getElem?_act hi ha]

theorem getElem?_environments_clone {actions : List Action} {i : Nat} {env : Environment}
    (h : (environments actions)[i]? = some env) :
    (environments (actions ++ [.clone i]))[(environments actions).length]? = some env := by
  rw [environments_append, List.foldl_cons, List.foldl_nil, act, h]
  exact List.getElem?_concat_length

/-- After every history each environment is the map that its past tells, a clone begins as its
original is, and neither of the two changes by what is done to the other one or to any other. -/
theorem environments_reflect_pasts (actions : List Action) :
    List.Forall₂ (fun env p => env.Reflects p.value?) (environments actions) (pasts actions) ∧
    ∀ i env, (environments actions)[i]? = some env →
      (environments (actions ++ [.clone i]))[(environments actions).length]? = some env ∧
      ∀ later, (∀ a ∈ later, a.changed? ≠ some i) →
        (environments (actions ++ later))[i]? = some env := by
  refine ⟨?_, fun i env h => ⟨getElem?_environments_clone h, fun later hlater => ?_⟩⟩
  · rw [environments_eq_map, List.forall₂_map_left_iff]
    exact List.forall₂_same.2 fun p _ => reflects_environment p
  · obtain ⟨hi, -⟩ := List.getElem?_eq_some_iff.1 h
    rw [environments_append, getElem?_foldl_act hi hlater, h]

/-- The constant `E` is overwritten, a clone is made and reset, and a bad name is set in it. -/
theorem environments_reflect_pasts_of_reset_clone :
    let actions : List Action := [.create true, .change 0 (.set "E" 3)]
    let later : List Action := [.clone 0, .change 1 .reset, .change 1 (.set "x1" 7)]
    ((environments actions)[0]? = some (Environment.standard.after (.set "E" 3)) ∧
      ∀ a ∈ later, a.changed? ≠ some 0) ∧
    (environments (actions ++ later))[0]? = some (Environment.standard.after (.set "E" 3)) := by
  intro actions later
  have hfirst : (environments actions)[0]? = some (Environment.standard.after (.set "E" 3)) := rfl
  have hlater : ∀ a ∈ later, a.changed? ≠ some 0 := by decide
  exact ⟨⟨hfirst, hlater⟩, ((environments_reflect_pasts actions).2 0 _ hfirst).2 later hlater⟩

end LineCalculator
