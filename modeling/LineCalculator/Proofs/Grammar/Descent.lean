import LineCalculator.Proofs.Grammar.Completeness
/-! # Reading an expression by recursive descent

Every phrase of the grammar is read by a function of its own from a cursor on, and each function
leaves the cursor where its phrase ends. Spaces are passed only where a character is looked for.

* `Cursor`: what is left of a text, and the byte offset where it starts.
* `Cursor.eat?`, `Cursor.run?`: the next character, and the next run of characters, with the cursor
  after it.
* `factorBeyond`, `termBeyond`, `sumBeyond`: the functions, their cursors carrying the proof that
  they have advanced. `scaleOnward` and `addOnward` read the operators of one level in a loop.
* `parseFactor`, `parseTerm`, `parseSum`, `parseScaled`, `parseAdded`: the same without the proofs,
  and one equation for each way to go on.
* `parse`: the value of a whole text.
-/

namespace LineCalculator.Expression
set_option autoImplicit false
open Text

/-! ## Cursors -/

structure Cursor where
  position : Nat
  text : List Char
deriving DecidableEq, Repr

namespace Cursor

/-- The cursor after the characters of a class. -/
def pass (p : Char → Bool) (c : Cursor) : Cursor :=
  ⟨c.position + byteLength (c.text.takeWhile p), c.text.dropWhile p⟩

/-- The cursor after the spaces. -/
def skip (c : Cursor) : Cursor := c.pass (· = ' ')

theorem length_pass_le (p : Char → Bool) (c : Cursor) :
    (c.pass p).text.length ≤ c.text.length :=
  (List.dropWhile_sublist p).length_le

theorem length_pass_lt {p : Char → Bool} {c : Cursor} {ch : Char} {rest : List Char}
    (h : c.text = ch :: rest) (hp : p ch = true) : (c.pass p).text.length < c.text.length := by
  rw [pass, h, List.dropWhile_cons_of_pos hp, List.length_cons]
  exact Nat.lt_succ_of_le (List.dropWhile_sublist p).length_le

theorem length_lt_of_skip {c : Cursor} {ch : Char} {rest : List Char}
    (h : c.skip.text = ch :: rest) : rest.length < c.text.length := by
  have hle : c.skip.text.length ≤ c.text.length := c.length_pass_le _
  rw [h, List.length_cons] at hle
  exact hle

/-- A cursor at which less of the text is left. -/
abbrev Beyond (c : Cursor) : Type := { c' : Cursor // c'.text.length < c.text.length }

/-- A cursor at which no more of the text is left. -/
abbrev Onward (c : Cursor) : Type := { c' : Cursor // c'.text.length ≤ c.text.length }

variable {α : Type} {c c' : Cursor}

def Beyond.after (r : c'.Beyond) (h : c'.text.length ≤ c.text.length) : c.Beyond :=
  ⟨r.1, r.2.trans_le h⟩

def Onward.after (r : c'.Onward) (h : c'.text.length < c.text.length) : c.Beyond :=
  ⟨r.1, r.2.trans_lt h⟩

/-- What the next character other than a space means, if it means something. It is passed then. -/
def eat? (meaning : Char → Option α) (c : Cursor) : Option (α × c.Beyond) :=
  match h : c.skip.text with
  | [] => none
  | ch :: rest =>
    have hlt := length_lt_of_skip h
    (meaning ch).map fun a => (a, ⟨⟨c.skip.position + ch.utf8Size, rest⟩, hlt⟩)

/-- The run of characters of a class that starts after the spaces, if one does. -/
def run? (p : Char → Bool) (c : Cursor) : Option (List Char × c.Beyond) :=
  match h : c.skip.text with
  | [] => none
  | ch :: _ =>
    if hp : p ch = true then
      have hlt : (c.skip.pass p).text.length < c.text.length :=
        (length_pass_lt h hp).trans_le (c.length_pass_le _)
      some (c.skip.text.takeWhile p, ⟨c.skip.pass p, hlt⟩)
    else none

/-- The digits and points that start after the spaces. -/
def literal (c : Cursor) : List Char := c.skip.text.takeWhile Decimal.isNumeralChar

/-- The lowercase letters that start after the spaces. -/
def word (c : Cursor) : String := String.ofList (c.skip.text.takeWhile Char.isLower)

end Cursor

/-! ## The functions -/

def Sign.ofChar? (c : Char) : Option Sign :=
  if c = '+' then some .plus else if c = '-' then some .minus else none

def Scale.ofChar? (c : Char) : Option Scale :=
  if c = '*' then some .times else if c = '/' then some .over else none

def only (expected : Char) (c : Char) : Option Unit := if c = expected then some () else none

/-- Why no operand starts at a cursor. -/
def noOperand (c : Cursor) : ExpressionError :=
  match c.skip.text with
  | [] => .unexpectedEnd c.skip.position
  | ch :: _ => .unexpectedCharacter ch c.skip.position

variable (env : Environment)

mutual

/-- A factor, `depth` others being open around it. -/
def factorBeyond (depth : Nat) (c : Cursor) : Logged ExpressionError (Float × c.Beyond) :=
  if maxOpenFactors ≤ depth then .error (.nestedTooDeeply c.position)
  else
    match c.eat? Sign.ofChar? with
    | some (s, next) =>
      (factorBeyond (depth + 1) next.1).bind fun r =>
        .value (s.ofOperand r.1, r.2.after next.2.le)
    | none =>
      match c.eat? (only '(') with
      | some (_, next) =>
        (sumBeyond (depth + 1) next.1).bind fun r =>
          match r.2.1.eat? (only ')') with
          | some (_, last) => .value (r.1, last.after (r.2.2.trans next.2).le)
          | none => .error (.missingParenthesis r.2.1.skip.position)
      | none =>
        match c.run? Decimal.isNumeralChar with
        | some (literal, next) =>
          match Decimal.read? literal with
          | some d => .value (d.toFloat, next)
          | none => .error (.malformedNumeral (String.ofList literal) c.skip.position)
        | none =>
          match c.run? Char.isLower with
          | some (word, next) =>
            match Builtin.ofName? (String.ofList word) with
            | some f =>
              (factorBeyond (depth + 1) next.1).bind fun r =>
                ((f.apply r.1).mapError .domain).bind fun y => .value (y, r.2.after next.2.le)
            | none =>
              match env.get? (String.ofList word) with
              | some x => .value (x, next)
              | none => .error (.unknownName (String.ofList word) c.skip.position)
          | none => .error (noOperand c)
termination_by (c.text.length, 0)
decreasing_by all_goals exact Prod.Lex.left _ _ next.2

/-- A factor, and the ones that its product goes on with. -/
def termBeyond (depth : Nat) (c : Cursor) : Logged ExpressionError (Float × c.Beyond) :=
  (factorBeyond depth c).bind fun r =>
    have hr := r.2.2
    (scaleOnward depth r.1 r.2.1).bind fun q => .value (q.1, q.2.after hr)
termination_by (c.text.length, 1)

/-- The product of `x` and the factors that follow. -/
def scaleOnward (depth : Nat) (x : Float) (c : Cursor) :
    Logged ExpressionError (Float × c.Onward) :=
  match c.eat? Scale.ofChar? with
  | some (o, next) =>
    (factorBeyond depth next.1).bind fun r =>
      have hr := r.2.2.trans next.2
      (scaleOnward depth (o.combine x r.1) r.2.1).bind fun q =>
        .value (q.1, ⟨q.2.1, q.2.2.trans hr.le⟩)
  | none => .value (x, ⟨c.skip, c.length_pass_le _⟩)
termination_by (c.text.length, 0)

/-- A term, and the ones that its sum goes on with. -/
def sumBeyond (depth : Nat) (c : Cursor) : Logged ExpressionError (Float × c.Beyond) :=
  (termBeyond depth c).bind fun r =>
    have hr := r.2.2
    (addOnward depth r.1 r.2.1).bind fun q => .value (q.1, q.2.after hr)
termination_by (c.text.length, 2)

/-- The sum of `x` and the terms that follow. -/
def addOnward (depth : Nat) (x : Float) (c : Cursor) :
    Logged ExpressionError (Float × c.Onward) :=
  match c.eat? Sign.ofChar? with
  | some (s, next) =>
    (termBeyond depth next.1).bind fun r =>
      have hr := r.2.2.trans next.2
      (addOnward depth (s.combine x r.1) r.2.1).bind fun q =>
        .value (q.1, ⟨q.2.1, q.2.2.trans hr.le⟩)
  | none => .value (x, ⟨c.skip, c.length_pass_le _⟩)
termination_by (c.text.length, 0)

end

/-! ## Without the proofs -/

def parseFactor (depth : Nat) (c : Cursor) : Logged ExpressionError (Float × Cursor) :=
  (factorBeyond env depth c).bind fun r => .value (r.1, r.2.1)

def parseTerm (depth : Nat) (c : Cursor) : Logged ExpressionError (Float × Cursor) :=
  (termBeyond env depth c).bind fun r => .value (r.1, r.2.1)

def parseScaled (depth : Nat) (x : Float) (c : Cursor) : Logged ExpressionError (Float × Cursor) :=
  (scaleOnward env depth x c).bind fun r => .value (r.1, r.2.1)

def parseSum (depth : Nat) (c : Cursor) : Logged ExpressionError (Float × Cursor) :=
  (sumBeyond env depth c).bind fun r => .value (r.1, r.2.1)

def parseAdded (depth : Nat) (x : Float) (c : Cursor) : Logged ExpressionError (Float × Cursor) :=
  (addOnward env depth x c).bind fun r => .value (r.1, r.2.1)

/-- The closing parenthesis that is due after the value of a sum. -/
def parseClosing (x : Float) (c : Cursor) : Logged ExpressionError (Float × Cursor) :=
  match c.eat? (only ')') with
  | some (_, last) => .value (x, last.1)
  | none => .error (.missingParenthesis c.skip.position)

def parse (text : List Char) : Logged ExpressionError Float :=
  (parseSum env 0 ⟨0, text⟩).bind fun r =>
    match r.2.text with
    | [] => .value r.1
    | ch :: _ => .error (.trailingInput ch r.2.position)

/-! ## What comes next -/

namespace Cursor
variable {α : Type} {meaning : Char → Option α} {a : α} {p : Char → Bool} {c : Cursor} {ch : Char}
  {rest : List Char}

/-- The next character, if there is one, means nothing. -/
def Stops (meaning : Char → Option α) (c : Cursor) : Prop :=
  ∀ ch ∈ c.skip.text.head?, meaning ch = none

theorem stops_or_goes_on (meaning : Char → Option α) (c : Cursor) :
    c.Stops meaning ∨ ∃ ch rest a, c.skip.text = ch :: rest ∧ meaning ch = some a := by
  unfold Stops
  cases c.skip.text with
  | nil =>
    left
    intro ch hch
    cases hch
  | cons ch rest =>
    cases hm : meaning ch with
    | none =>
      left
      intro ch' hch
      cases hch
      exact hm
    | some a => exact .inr ⟨ch, rest, a, rfl, hm⟩

theorem eat?_of_nil (h : c.skip.text = []) : c.eat? meaning = none := by
  unfold eat?
  split
  · rfl
  · rename_i h'
    rw [h] at h'
    cases h'

theorem run?_of_nil (h : c.skip.text = []) : c.run? p = none := by
  unfold run?
  split
  · rfl
  · rename_i h'
    rw [h] at h'
    cases h'

section
variable (h : c.skip.text = ch :: rest)
include h

theorem eat?_of_none (hm : meaning ch = none) : c.eat? meaning = none := by
  unfold eat?
  split
  · rfl
  · rename_i h'
    rw [h] at h'
    cases h'
    rw [hm]
    rfl

theorem eat?_of_some (hm : meaning ch = some a) : ∃ next : c.Beyond,
    c.eat? meaning = some (a, next) ∧ next.1 = ⟨c.skip.position + ch.utf8Size, rest⟩ := by
  unfold eat?
  split
  · rename_i h'
    rw [h] at h'
    cases h'
  · rename_i h'
    rw [h] at h'
    cases h'
    rw [hm]
    exact ⟨_, rfl, rfl⟩

theorem run?_of_neg (hp : p ch = false) : c.run? p = none := by
  unfold run?
  split
  · rfl
  · rename_i h'
    rw [h] at h'
    cases h'
    exact dif_neg (Bool.eq_false_iff.1 hp)

theorem run?_of_pos (hp : p ch = true) : ∃ next : c.Beyond,
    c.run? p = some (c.skip.text.takeWhile p, next) ∧ next.1 = c.skip.pass p := by
  unfold run?
  split
  · rename_i h'
    rw [h] at h'
    cases h'
  · rename_i h'
    rw [h] at h'
    cases h'
    exact ⟨_, dif_pos hp, rfl⟩

end

theorem Stops.eat?_eq_none (h : c.Stops meaning) : c.eat? meaning = none := by
  cases ht : c.skip.text with
  | nil => exact eat?_of_nil ht
  | cons ch rest => exact eat?_of_none ht (h ch (by rw [ht]; rfl))

theorem exists_of_takeWhile_ne (h : c.skip.text.takeWhile p ≠ []) :
    ∃ ch rest, c.skip.text = ch :: rest ∧ p ch = true := by
  cases hrest : c.skip.text with
  | nil =>
    rw [hrest] at h
    exact absurd rfl h
  | cons ch rest =>
    refine ⟨ch, rest, rfl, ?_⟩
    by_contra hp
    rw [hrest, List.takeWhile_cons_of_neg hp] at h
    exact h rfl

theorem takeWhile_ne (h : c.skip.text = ch :: rest) (hp : p ch = true) :
    c.skip.text.takeWhile p ≠ [] := by
  rw [h, List.takeWhile_cons_of_pos hp]
  exact List.cons_ne_nil _ _

theorem word_ne_iff : c.word ≠ "" ↔ c.skip.text.takeWhile Char.isLower ≠ [] := by
  rw [word, Ne, ← String.toList_inj, String.toList_ofList]
  rfl

end Cursor

/-- A character of a class of others than these starts neither a sign nor a parenthesis. -/
theorem starts_of_class {p : Char → Bool} {ch : Char} (hp : ∀ c ∈ ['+', '-', '('], p c = false)
    (h : p ch = true) : Sign.ofChar? ch = none ∧ ch ≠ '(' := by
  have hne : ∀ c ∈ ['+', '-', '('], ch ≠ c := by
    rintro c hc rfl
    rw [hp ch hc] at h
    cases h
  rw [Sign.ofChar?, if_neg (hne '+' (by simp)), if_neg (hne '-' (by simp))]
  exact ⟨rfl, hne '(' (by simp)⟩

/-! ## One step of each function -/

section
variable {env} {depth : Nat} {c : Cursor} {ch : Char} {rest : List Char} {x : Float}

theorem parseFactor_tooDeep (hd : maxOpenFactors ≤ depth) :
    parseFactor env depth c = .error (.nestedTooDeeply c.position) := by
  rw [parseFactor, factorBeyond, if_pos hd]
  rfl

section
variable (hd : depth < maxOpenFactors)
include hd

theorem parseFactor_end (h : c.skip.text = []) :
    parseFactor env depth c = .error (.unexpectedEnd c.skip.position) := by
  rw [parseFactor, factorBeyond, if_neg (Nat.not_le.2 hd), Cursor.eat?_of_nil h,
    Cursor.eat?_of_nil h, Cursor.run?_of_nil h, Cursor.run?_of_nil h]
  dsimp only
  rw [noOperand, h]
  rfl

theorem parseFactor_sign {s : Sign} (h : c.skip.text = ch :: rest)
    (hs : Sign.ofChar? ch = some s) : parseFactor env depth c =
      (parseFactor env (depth + 1) ⟨c.skip.position + ch.utf8Size, rest⟩).bind fun r =>
        .value (s.ofOperand r.1, r.2) := by
  obtain ⟨⟨next, hnext⟩, he, rfl⟩ := Cursor.eat?_of_some h hs
  rw [parseFactor, factorBeyond, if_neg (Nat.not_le.2 hd), he]
  simp only [parseFactor, Logged.bind_assoc, Logged.value_bind, Cursor.Beyond.after]

theorem parseFactor_open (h : c.skip.text = '(' :: rest) : parseFactor env depth c =
    (parseSum env (depth + 1) ⟨c.skip.position + Char.utf8Size '(', rest⟩).bind fun r =>
      parseClosing r.1 r.2 := by
  have hs : Sign.ofChar? '(' = none := rfl
  have ho : only '(' '(' = some () := rfl
  obtain ⟨⟨next, hnext⟩, he, rfl⟩ := Cursor.eat?_of_some h ho
  rw [parseFactor, factorBeyond, if_neg (Nat.not_le.2 hd), Cursor.eat?_of_none h hs, he]
  simp only [parseSum, parseClosing, Logged.bind_assoc, Logged.value_bind]
  congr 1
  funext r
  cases r.2.1.eat? (only ')') with
  | none => rfl
  | some last => rfl

theorem parseFactor_numeral (hn : c.literal ≠ []) : parseFactor env depth c =
    match Decimal.read? c.literal with
    | some d => .value (d.toFloat, c.skip.pass Decimal.isNumeralChar)
    | none => .error (.malformedNumeral (String.ofList c.literal) c.skip.position) := by
  obtain ⟨ch, rest, h, hch⟩ := Cursor.exists_of_takeWhile_ne hn
  obtain ⟨hs, ho⟩ := starts_of_class (by decide) hch
  obtain ⟨⟨next, hnext⟩, he, rfl⟩ := Cursor.run?_of_pos h hch
  rw [parseFactor, factorBeyond, if_neg (Nat.not_le.2 hd), Cursor.eat?_of_none h hs,
    Cursor.eat?_of_none h (if_neg ho), he, Cursor.literal]
  dsimp only
  cases Decimal.read? (c.skip.text.takeWhile Decimal.isNumeralChar) with
  | none => rfl
  | some d => rfl

theorem parseFactor_word (hw : c.word ≠ "") : parseFactor env depth c =
    match Builtin.ofName? c.word with
    | some f =>
      (parseFactor env (depth + 1) (c.skip.pass Char.isLower)).bind fun r =>
        ((f.apply r.1).mapError .domain).bind fun y => .value (y, r.2)
    | none =>
      match env.get? c.word with
      | some x => .value (x, c.skip.pass Char.isLower)
      | none => .error (.unknownName c.word c.skip.position) := by
  obtain ⟨ch, rest, h, hch⟩ := Cursor.exists_of_takeWhile_ne (Cursor.word_ne_iff.1 hw)
  obtain ⟨hs, ho⟩ := starts_of_class (by decide) hch
  obtain ⟨⟨next, hnext⟩, he, rfl⟩ := Cursor.run?_of_pos h hch
  rw [parseFactor, factorBeyond, if_neg (Nat.not_le.2 hd), Cursor.eat?_of_none h hs,
    Cursor.eat?_of_none h (if_neg ho), Cursor.run?_of_neg h (isNumeralChar_of_isLower hch), he,
    Cursor.word]
  dsimp only
  generalize String.ofList (c.skip.text.takeWhile Char.isLower) = name
  cases Builtin.ofName? name with
  | none =>
    dsimp only
    cases env.get? name with
    | none => rfl
    | some x => rfl
  | some f =>
    simp only [parseFactor, Logged.bind_assoc, Logged.value_bind, Cursor.Beyond.after]

theorem parseFactor_unexpected (h : c.skip.text = ch :: rest) (hs : Sign.ofChar? ch = none)
    (ho : ch ≠ '(') (hk : tokenKind ch = none) :
    parseFactor env depth c = .error (.unexpectedCharacter ch c.skip.position) := by
  have hn : Decimal.isNumeralChar ch = false := by
    apply Bool.eq_false_iff.2
    intro hn
    rw [tokenKind_of_isNumeralChar hn] at hk
    cases hk
  have hl : ch.isLower = false := by
    apply Bool.eq_false_iff.2
    intro hl
    rw [tokenKind_of_isLower hl] at hk
    cases hk
  rw [parseFactor, factorBeyond, if_neg (Nat.not_le.2 hd), Cursor.eat?_of_none h hs,
    Cursor.eat?_of_none h (if_neg ho), Cursor.run?_of_neg h hn, Cursor.run?_of_neg h hl]
  dsimp only
  rw [noOperand, h]
  rfl

end

theorem parseTerm_eq : parseTerm env depth c =
    (parseFactor env depth c).bind fun r => parseScaled env depth r.1 r.2 := by
  rw [parseTerm, termBeyond]
  simp only [parseFactor, parseScaled, Logged.bind_assoc, Logged.value_bind, Cursor.Onward.after]

theorem parseSum_eq : parseSum env depth c =
    (parseTerm env depth c).bind fun r => parseAdded env depth r.1 r.2 := by
  rw [parseSum, sumBeyond]
  simp only [parseTerm, parseAdded, Logged.bind_assoc, Logged.value_bind, Cursor.Onward.after]

theorem parseScaled_operator {o : Scale} (h : c.skip.text = ch :: rest)
    (ho : Scale.ofChar? ch = some o) : parseScaled env depth x c =
      (parseFactor env depth ⟨c.skip.position + ch.utf8Size, rest⟩).bind fun r =>
        parseScaled env depth (o.combine x r.1) r.2 := by
  obtain ⟨⟨next, hnext⟩, he, rfl⟩ := Cursor.eat?_of_some h ho
  rw [parseScaled, scaleOnward, he]
  simp only [parseFactor, parseScaled, Logged.bind_assoc, Logged.value_bind]

theorem parseAdded_operator {s : Sign} (h : c.skip.text = ch :: rest)
    (hs : Sign.ofChar? ch = some s) : parseAdded env depth x c =
      (parseTerm env depth ⟨c.skip.position + ch.utf8Size, rest⟩).bind fun r =>
        parseAdded env depth (s.combine x r.1) r.2 := by
  obtain ⟨⟨next, hnext⟩, he, rfl⟩ := Cursor.eat?_of_some h hs
  rw [parseAdded, addOnward, he]
  simp only [parseTerm, parseAdded, Logged.bind_assoc, Logged.value_bind]

theorem parseScaled_stop (h : c.Stops Scale.ofChar?) :
    parseScaled env depth x c = .value (x, c.skip) := by
  rw [parseScaled, scaleOnward, h.eat?_eq_none]
  rfl

theorem parseAdded_stop (h : c.Stops Sign.ofChar?) :
    parseAdded env depth x c = .value (x, c.skip) := by
  rw [parseAdded, addOnward, h.eat?_eq_none]
  rfl

/-! ## Progress -/

theorem parseFactor_beyond {r : Float × Cursor} (h : (parseFactor env depth c).result = .ok r) :
    r.2.text.length < c.text.length := by
  obtain ⟨q, -, hq⟩ := Logged.result_bind_eq_ok.1 h
  cases hq
  exact q.2.2

theorem parseTerm_beyond {r : Float × Cursor} (h : (parseTerm env depth c).result = .ok r) :
    r.2.text.length < c.text.length := by
  obtain ⟨q, -, hq⟩ := Logged.result_bind_eq_ok.1 h
  cases hq
  exact q.2.2

theorem parseSum_beyond {r : Float × Cursor} (h : (parseSum env depth c).result = .ok r) :
    r.2.text.length < c.text.length := by
  obtain ⟨q, -, hq⟩ := Logged.result_bind_eq_ok.1 h
  cases hq
  exact q.2.2

end

end LineCalculator.Expression
