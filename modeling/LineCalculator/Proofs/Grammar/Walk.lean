import LineCalculator.Proofs.Grammar.Agreement
/-! # Reading an expression in place

The descent as it walks over one text that stays where it is. A byte offset moves over the text, the
character found there is kept beside it, and so is the number of open factors. Text is only ever
taken by cutting at byte offsets, which is impossible inside a character and beyond the end.

Nothing in the definitions says that loops and calls end. How many calls may be open at once is
limited by a number instead, each round of a loop being a call inside the round before.

* `cutAt?`, `slice?`: cutting a text at byte offsets.
* `Head`, `Passage`: where a walk is; where it has been, and the events on the way.
* `Walk`: a part of a walk. It has no outcome if a cut is impossible or the limit is reached.
* `Walk.next`, `Walk.eat`, `Walk.takeWhile`: the moves.
* `walkFactor`, `walkTerm`, `walkSum`: one function for each phrase, with the loops `walkScaled` and
  `walkAdded` for the operators.
* `walk`: the value of a whole text.
* `Walk.Extends`, `walkWhole_extends`: an outcome does not depend on how many more calls may be open.
-/

namespace LineCalculator.Expression
set_option autoImplicit false
open Text

/-! ## Cuts -/

/-- The parts of a text before and after a byte offset. -/
def cutAt? : List Char → Nat → Option (List Char × List Char)
  | text, 0 => some ([], text)
  | [], _ + 1 => none
  | c :: text, n + 1 =>
    if c.utf8Size ≤ n + 1 then
      (cutAt? text (n + 1 - c.utf8Size)).map fun parts => (c :: parts.1, parts.2)
    else none

/-- The part of a text between two byte offsets. -/
def slice? (text : List Char) (start stop : Nat) : Option (List Char) :=
  (cutAt? text stop).bind fun parts => (cutAt? parts.1 start).map Prod.snd

theorem cutAt?_cons {c : Char} {text : List Char} {n : Nat} (h : c.utf8Size ≤ n) :
    cutAt? (c :: text) n =
      (cutAt? text (n - c.utf8Size)).map fun parts => (c :: parts.1, parts.2) := by
  cases n with
  | zero => exact absurd h (Nat.not_le.2 c.utf8Size_pos)
  | succ n => rw [cutAt?, if_pos h]

theorem cutAt?_eq_some_iff {text before after : List Char} {n : Nat} :
    cutAt? text n = some (before, after) ↔ text = before ++ after ∧ byteLength before = n := by
  constructor
  · intro h
    fun_induction cutAt? text n generalizing before with
    | case1 text =>
      cases h
      exact ⟨rfl, rfl⟩
    | case2 n => cases h
    | case3 c text n hc ih =>
      obtain ⟨⟨before, _⟩, hparts, heq⟩ := Option.map_eq_some_iff.1 h
      cases heq
      obtain ⟨rfl, hlen⟩ := ih hparts
      refine ⟨rfl, ?_⟩
      rw [byteLength, hlen, Nat.add_sub_cancel' hc]
    | case4 c text n hc => cases h
  · rintro ⟨rfl, rfl⟩
    induction before with
    | nil => rw [byteLength, cutAt?, List.nil_append]
    | cons c before ih =>
      rw [List.cons_append, byteLength, cutAt?_cons (Nat.le_add_right _ _), Nat.add_sub_cancel_left,
        ih]
      rfl

theorem slice?_eq_some_iff {text piece : List Char} {start stop : Nat} :
    slice? text start stop = some piece ↔ ∃ before after, text = before ++ piece ++ after ∧
      byteLength before = start ∧ byteLength (before ++ piece) = stop := by
  constructor
  · intro h
    obtain ⟨⟨front, after⟩, hfront, hpiece⟩ := Option.bind_eq_some_iff.1 h
    obtain ⟨⟨before, _⟩, hbefore, heq⟩ := Option.map_eq_some_iff.1 hpiece
    cases heq
    obtain ⟨rfl, hstop⟩ := cutAt?_eq_some_iff.1 hfront
    obtain ⟨rfl, hstart⟩ := cutAt?_eq_some_iff.1 hbefore
    exact ⟨before, after, rfl, hstart, hstop⟩
  · rintro ⟨before, after, rfl, hstart, hstop⟩
    rw [slice?, cutAt?_eq_some_iff.2 ⟨rfl, hstop⟩, Option.bind_some,
      cutAt?_eq_some_iff.2 ⟨rfl, hstart⟩]
    rfl

/-! ## Walks -/

/-- Where a walk is: a byte offset, the character there, and how many factors are open. -/
structure Head where
  position : Nat
  current : Option Char
  depth : Nat
deriving DecidableEq, Repr

/-- Where a walk is and where it has been, latest first, and the events on the way. -/
structure Passage where
  head : Head
  earlier : List Head
  events : List Event

/-- All places of a walk, the latest one first. -/
def Passage.heads (p : Passage) : List Head := p.head :: p.earlier

/-- At the beginning of a text. -/
def Passage.start (source : List Char) : Passage := ⟨⟨0, source.head?, 0⟩, [], []⟩

/-- A part of a walk. -/
abbrev Walk := StateT Passage Option

/-- A part of a walk in which an error may be found. -/
abbrev Try := ExceptT ExpressionError Walk

namespace Walk

def head : Walk Head := fun p => some (p.head, p)

def moveTo (h : Head) : Walk Unit := fun p => some ((), ⟨h, p.heads, p.events⟩)

/-- One more factor is open. -/
def enter : Walk Unit := do
  let h ← head
  moveTo { h with depth := h.depth + 1 }

/-- One factor less is open. -/
def leave : Walk Unit := do
  let h ← head
  moveTo { h with depth := h.depth - 1 }

def log (events : List Event) : Walk Unit :=
  fun p => some ((), { p with events := p.events ++ events })

def cut (text : List Char) (n : Nat) : Walk (List Char × List Char) :=
  fun p => (cutAt? text n).map fun parts => (parts, p)

def slice (text : List Char) (start stop : Nat) : Walk (List Char) :=
  fun p => (slice? text start stop).map fun piece => (piece, p)

variable (source : List Char)

/-- One character on. At the end there is none. -/
def next : Walk Unit := do
  let h ← head
  match h.current with
  | none => return ()
  | some ch =>
    let parts ← cut source (h.position + ch.utf8Size)
    moveTo ⟨h.position + ch.utf8Size, parts.2.head?, h.depth⟩

/-- On while the characters are of a class. -/
def passWhile (p : Char → Bool) : Nat → Walk Unit
  | 0 => fun _ => none
  | calls + 1 => do
    let h ← head
    if h.current.any p then
      next source
      passWhile p calls

/-- The spaces are passed, and then the expected character if it is there. -/
def eat (calls : Nat) (expected : Char) : Walk Bool := do
  passWhile source (· = ' ') calls
  let h ← head
  if h.current = some expected then
    next source
    return true
  else return false

/-- The characters of a class that are passed. -/
def takeWhile (calls : Nat) (p : Char → Bool) : Walk (List Char) := do
  let start ← head
  passWhile source p calls
  let stop ← head
  slice source start.position stop.position

end Walk

open Walk

/-! ## Phrases -/

/-- A function of the language is applied. -/
def callOn (f : Builtin) (x : Float) : Try Float := do
  log (f.apply x).events
  ExceptT.mk (pure ((f.apply x).result.mapError .domain))

variable (env : Environment) (source : List Char)

def walkNumber (calls : Nat) : Try Float := do
  let h ← head
  let literal ← takeWhile source calls Decimal.isNumeralChar
  match Decimal.read? literal with
  | some d => return d.toFloat
  | none => throw (.malformedNumeral (String.ofList literal) h.position)

/-- The closing parenthesis that is due after the value of a sum. -/
def walkClosing (calls : Nat) (x : Float) : Try Float := do
  if ← eat source calls ')' then return x
  else
    let h ← head
    throw (.missingParenthesis h.position)

mutual

/-- A factor. It is closed again also when an error was found in it. -/
def walkFactor : Nat → Try Float
  | 0 => fun _ => none
  | calls + 1 =>
    (do
      let h ← head
      if maxOpenFactors ≤ h.depth then return .error (.nestedTooDeeply h.position)
      else
        enter
        let x ← (walkNested calls).run
        leave
        return x : Walk (Except ExpressionError Float))

def walkNested : Nat → Try Float
  | 0 => fun _ => none
  | calls + 1 => do
    if ← eat source calls '+' then walkFactor calls
    else if ← eat source calls '-' then return -(← walkFactor calls)
    else if ← eat source calls '(' then
      let x ← walkSum calls
      walkClosing source calls x
    else
      let h ← head
      match h.current with
      | some ch =>
        if Decimal.isNumeralChar ch then walkNumber source calls
        else if ch.isLower then walkWord calls
        else throw (.unexpectedCharacter ch h.position)
      | none => throw (.unexpectedEnd h.position)

def walkWord : Nat → Try Float
  | 0 => fun _ => none
  | calls + 1 => do
    let h ← head
    let letters ← takeWhile source calls Char.isLower
    match Builtin.ofName? (String.ofList letters) with
    | some f =>
      let x ← walkFactor calls
      callOn f x
    | none =>
      match env.get? (String.ofList letters) with
      | some x => return x
      | none => throw (.unknownName (String.ofList letters) h.position)

def walkTerm : Nat → Try Float
  | 0 => fun _ => none
  | calls + 1 => do
    let x ← walkFactor calls
    walkScaled x calls

/-- The loop of a term. -/
def walkScaled (x : Float) : Nat → Try Float
  | 0 => fun _ => none
  | calls + 1 => do
    if ← eat source calls '*' then
      let y ← walkFactor calls
      walkScaled (x * y) calls
    else if ← eat source calls '/' then
      let y ← walkFactor calls
      walkScaled (x / y) calls
    else return x

def walkSum : Nat → Try Float
  | 0 => fun _ => none
  | calls + 1 => do
    let x ← walkTerm calls
    walkAdded x calls

/-- The loop of a sum. -/
def walkAdded (x : Float) : Nat → Try Float
  | 0 => fun _ => none
  | calls + 1 => do
    if ← eat source calls '+' then
      let y ← walkTerm calls
      walkAdded (x + y) calls
    else if ← eat source calls '-' then
      let y ← walkTerm calls
      walkAdded (x - y) calls
    else return x

end

/-- A text of which something is left after the sum is rejected. -/
def walkWhole (calls : Nat) : Try Float := do
  let x ← walkSum env source calls
  let h ← head
  match h.current with
  | some ch => throw (.trailingInput ch h.position)
  | none => return x

/-- The walk over a whole text, with its passage. -/
def walk (calls : Nat) : Option (Except ExpressionError Float × Passage) :=
  walkWhole env source calls (.start source)

/-! ## More calls

Where a part of a walk has an outcome, it has the same one when more calls may be open.
-/

/-- The second part of a walk has the outcomes of the first. -/
def Walk.Extends {α : Type} (m m' : Walk α) : Prop := ∀ p r, m p = some r → m' p = some r

namespace Walk.Extends
variable {α β : Type}

theorem refl (m : Walk α) : Extends m m := fun _ _ h => h

theorem trans {m m' m'' : Walk α} (h : Extends m m') (h' : Extends m' m'') : Extends m m'' :=
  fun p r hr => h' p r (h p r hr)

theorem nowhere (m : Walk α) : Extends (fun _ => none) m := nofun

theorem bind {m m' : Walk α} {f f' : α → Walk β} (hm : Extends m m')
    (hf : ∀ a, Extends (f a) (f' a)) : Extends (m >>= f) (m' >>= f') := by
  intro p r h
  obtain ⟨⟨a, p'⟩, hp', hr⟩ := Option.bind_eq_some_iff.1 h
  exact Option.bind_eq_some_iff.2 ⟨(a, p'), hm p _ hp', hf a p' r hr⟩

theorem tryBind {m m' : Try α} {f f' : α → Try β} (hm : Extends m m')
    (hf : ∀ a, Extends (f a) (f' a)) : Extends (m >>= f : Try β) (m' >>= f' : Try β) := by
  refine bind hm fun a => ?_
  cases a with
  | error e => exact refl _
  | ok a => exact hf a

theorem lift {w w' : Walk α} (hw : Extends w w') :
    Extends (liftM w : Try α) (liftM w' : Try α) := by
  intro p r h
  obtain ⟨⟨a, p'⟩, hp', hr⟩ := Option.bind_eq_some_iff.1 h
  exact Option.bind_eq_some_iff.2 ⟨(a, p'), hw p _ hp', hr⟩

theorem after {w w' : Walk α} {f f' : α → Try β} (hw : Extends w w')
    (hf : ∀ a, Extends (f a) (f' a)) :
    Extends (liftM w >>= f : Try β) (liftM w' >>= f' : Try β) :=
  tryBind hw.lift hf

theorem ite {P : Prop} [Decidable P] {m₁ m₁' m₂ m₂' : Walk α} (h₁ : Extends m₁ m₁')
    (h₂ : Extends m₂ m₂') : Extends (if P then m₁ else m₂) (if P then m₁' else m₂') := by
  split
  · exact h₁
  · exact h₂

/-- A function that has no fewer outcomes with one call more has none fewer with any number. -/
theorem of_le {f : Nat → Walk α} (h : ∀ n, Extends (f n) (f (n + 1))) {n n' : Nat} (hle : n ≤ n') :
    Extends (f n) (f n') := by
  induction hle with
  | refl => exact refl _
  | step _ ih => exact ih.trans (h _)

end Walk.Extends

section
variable {env : Environment} {source : List Char}

theorem passWhile_extends (q : Char → Bool) (calls : Nat) :
    Extends (passWhile source q calls) (passWhile source q (calls + 1)) := by
  induction calls with
  | zero => exact .nowhere _
  | succ calls ih =>
    rw [passWhile, passWhile]
    exact .bind (.refl _) fun h => .ite (.bind (.refl _) fun _ => ih) (.refl _)

theorem eat_extends (expected : Char) (calls : Nat) :
    Extends (eat source calls expected) (eat source (calls + 1) expected) :=
  .bind (passWhile_extends _ calls) fun _ => .refl _

theorem takeWhile_extends (q : Char → Bool) (calls : Nat) :
    Extends (Walk.takeWhile source calls q) (Walk.takeWhile source (calls + 1) q) :=
  .bind (.refl _) fun _ => .bind (passWhile_extends q calls) fun _ => .refl _

theorem eat_ite_extends {α : Type} {m₁ m₁' m₂ m₂' : Try α} (expected : Char) (calls : Nat)
    (h₁ : Extends m₁ m₁') (h₂ : Extends m₂ m₂') :
    Extends (do if ← eat source calls expected then m₁ else m₂ : Try α)
      (do if ← eat source (calls + 1) expected then m₁' else m₂' : Try α) :=
  .after (eat_extends expected calls) fun _ => .ite h₁ h₂

theorem walkNumber_extends (calls : Nat) :
    Extends (walkNumber source calls) (walkNumber source (calls + 1)) :=
  .after (.refl _) fun _ => .after (takeWhile_extends _ calls) fun _ => .refl _

theorem walkClosing_extends (calls : Nat) (x : Float) :
    Extends (walkClosing source calls x) (walkClosing source (calls + 1) x) :=
  eat_ite_extends ')' calls (.refl _) (.refl _)

mutual

theorem walkFactor_extends (calls : Nat) :
    Extends (walkFactor env source calls) (walkFactor env source (calls + 1)) := by
  cases calls with
  | zero => exact .nowhere _
  | succ calls =>
    rw [walkFactor, walkFactor]
    exact .bind (.refl _) fun h => .ite (.refl _)
      (.bind (.refl _) fun _ => .bind (walkNested_extends calls) fun _ => .refl _)

theorem walkNested_extends (calls : Nat) :
    Extends (walkNested env source calls) (walkNested env source (calls + 1)) := by
  cases calls with
  | zero => exact .nowhere _
  | succ calls =>
    rw [walkNested, walkNested]
    refine eat_ite_extends '+' calls (walkFactor_extends calls) ?_
    refine eat_ite_extends '-' calls
      (.tryBind (walkFactor_extends calls) fun _ => .refl _) ?_
    refine eat_ite_extends '(' calls
      (.tryBind (walkSum_extends calls) fun x => walkClosing_extends calls x) ?_
    refine .after (.refl _) fun h => ?_
    cases h.current with
    | none => exact .refl _
    | some ch => exact .ite (walkNumber_extends calls) (.ite (walkWord_extends calls) (.refl _))

theorem walkWord_extends (calls : Nat) :
    Extends (walkWord env source calls) (walkWord env source (calls + 1)) := by
  cases calls with
  | zero => exact .nowhere _
  | succ calls =>
    rw [walkWord, walkWord]
    refine .after (.refl _) fun h => .after (takeWhile_extends _ calls) fun letters => ?_
    cases Builtin.ofName? (String.ofList letters) with
    | none => exact .refl _
    | some f => exact .tryBind (walkFactor_extends calls) fun _ => .refl _

theorem walkTerm_extends (calls : Nat) :
    Extends (walkTerm env source calls) (walkTerm env source (calls + 1)) := by
  cases calls with
  | zero => exact .nowhere _
  | succ calls =>
    rw [walkTerm, walkTerm]
    exact .tryBind (walkFactor_extends calls) fun x => walkScaled_extends x calls

theorem walkScaled_extends (x : Float) (calls : Nat) :
    Extends (walkScaled env source x calls) (walkScaled env source x (calls + 1)) := by
  cases calls with
  | zero => exact .nowhere _
  | succ calls =>
    rw [walkScaled, walkScaled]
    exact eat_ite_extends '*' calls
      (.tryBind (walkFactor_extends calls) fun y => walkScaled_extends (x * y) calls)
      (eat_ite_extends '/' calls
        (.tryBind (walkFactor_extends calls) fun y => walkScaled_extends (x / y) calls) (.refl _))

theorem walkSum_extends (calls : Nat) :
    Extends (walkSum env source calls) (walkSum env source (calls + 1)) := by
  cases calls with
  | zero => exact .nowhere _
  | succ calls =>
    rw [walkSum, walkSum]
    exact .tryBind (walkTerm_extends calls) fun x => walkAdded_extends x calls

theorem walkAdded_extends (x : Float) (calls : Nat) :
    Extends (walkAdded env source x calls) (walkAdded env source x (calls + 1)) := by
  cases calls with
  | zero => exact .nowhere _
  | succ calls =>
    rw [walkAdded, walkAdded]
    exact eat_ite_extends '+' calls
      (.tryBind (walkTerm_extends calls) fun y => walkAdded_extends (x + y) calls)
      (eat_ite_extends '-' calls
        (.tryBind (walkTerm_extends calls) fun y => walkAdded_extends (x - y) calls) (.refl _))

end

theorem walkWhole_extends (calls : Nat) :
    Extends (walkWhole env source calls) (walkWhole env source (calls + 1)) :=
  .tryBind (walkSum_extends calls) fun _ => .refl _

end

end LineCalculator.Expression
