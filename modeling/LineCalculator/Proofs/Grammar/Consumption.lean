import LineCalculator.Proofs.Grammar.Agreement
/-! # What the descent consumes

A phrase is consumed to its last character, whatever follows it, as long as what follows does not
run together with that character. The value is that of the phrase's tree.

* `skip_pass_word`, `Cursor.skip_mark`: a word and a mark in front of a text.
* `FactorTree.parse_eq`, `TermTree.parse_eq`, `SumTree.parse_eq`: the cursor and the value after a
  phrase. A product and a sum are then looked for to go on.
-/

namespace LineCalculator.Expression
set_option autoImplicit false
open Text

/-! ## Cursors in front of a word -/

theorem byteLength_replicate (n : Nat) : byteLength (List.replicate n ' ') = n := by
  induction n with
  | zero => rfl
  | succ n ih =>
    have hsize : Char.utf8Size ' ' = 1 := rfl
    rw [List.replicate_succ, byteLength, ih, hsize, Nat.add_comm]

namespace Cursor
variable {position : Nat} {w rest : List Char}

theorem skip_blanks (n : Nat) (h : ∀ ch ∈ rest.head?, ch ≠ ' ') :
    (Cursor.mk position (List.replicate n ' ' ++ rest)).skip = ⟨position + n, rest⟩ := by
  induction n generalizing position with
  | zero => exact skip_of_ne h
  | succ n ih =>
    rw [List.replicate_succ, List.cons_append, skip_space, ih, Nat.add_assoc, Nat.add_comm 1 n]

theorem skip_word (position n : Nat) {w : List Char} (piece rest : List Char) (hne : w ≠ [])
    (hw : ∀ ch ∈ w.head?, ch ≠ ' ') :
    (Cursor.mk position (List.replicate n ' ' ++ (w ++ piece) ++ rest)).skip =
      ⟨position + n, w ++ (piece ++ rest)⟩ := by
  rw [List.append_assoc, List.append_assoc]
  apply skip_blanks
  rwa [List.head?_append_of_ne_nil _ hne]

theorem takeWhile_word {p : Char → Bool} (hw : ∀ c ∈ w, p c = true)
    (hrest : ∀ c ∈ rest.head?, p c = false) : (w ++ rest).takeWhile p = w := by
  rw [List.takeWhile_append_of_pos hw]
  cases rest with
  | nil => rw [List.takeWhile_nil, List.append_nil]
  | cons c rest =>
    rw [List.takeWhile_cons_of_neg (Bool.eq_false_iff.1 (hrest c rfl)), List.append_nil]

theorem pass_word {p : Char → Bool} (hw : ∀ c ∈ w, p c = true)
    (hrest : ∀ c ∈ rest.head?, p c = false) :
    (Cursor.mk position (w ++ rest)).pass p = ⟨position + byteLength w, rest⟩ := by
  have hdrop : (w ++ rest).dropWhile p = rest := by
    have h := List.takeWhile_append_dropWhile (p := p) (l := w ++ rest)
    rw [takeWhile_word hw hrest] at h
    exact List.append_cancel_left h
  rw [pass, takeWhile_word hw hrest, hdrop]

end Cursor

theorem position_after_word (position n : Nat) (w piece : List Char) :
    position + byteLength (List.replicate n ' ' ++ (w ++ piece)) =
      position + n + byteLength w + byteLength piece := by
  rw [byteLength_append, byteLength_append, byteLength_replicate]
  omega

theorem position_after_mark (position n : Nat) (ch : Char) (piece : List Char) :
    position + byteLength (List.replicate n ' ' ++ ([ch] ++ piece)) =
      position + n + ch.utf8Size + byteLength piece :=
  position_after_word position n [ch] piece

theorem Cursor.skip_mark (position n : Nat) {ch : Char} (piece rest : List Char) (hch : ch ≠ ' ') :
    (Cursor.mk position (List.replicate n ' ' ++ ([ch] ++ piece) ++ rest)).skip =
      ⟨position + n, ch :: (piece ++ rest)⟩ := by
  apply skip_word position n piece rest (List.cons_ne_nil ch [])
  intro c hc
  cases hc
  exact hch

theorem Sign.exists_char (s : Sign) :
    ∃ ch, s.mark.text = [ch] ∧ Sign.ofChar? ch = some s ∧ ch ≠ ' ' := by
  cases s
  · exact ⟨'+', rfl, rfl, by decide⟩
  · exact ⟨'-', rfl, rfl, by decide⟩

theorem Scale.exists_char (o : Scale) :
    ∃ ch, o.mark.text = [ch] ∧ Scale.ofChar? ch = some o ∧ ch ≠ ' ' := by
  cases o
  · exact ⟨'*', rfl, rfl, by decide⟩
  · exact ⟨'/', rfl, rfl, by decide⟩

/-! ## What a cursor meets -/

section
variable {env : Environment} {depth : Nat} {x : Float} {c : Cursor}

theorem parseAdded_skip : parseAdded env depth x c.skip = parseAdded env depth x c := by
  rcases c.stops_or_goes_on Sign.ofChar? with hstop | ⟨ch, rest, s, hrest, hs⟩
  · have hstop' : c.skip.Stops Sign.ofChar? := by rwa [Cursor.Stops, c.skip_skip]
    rw [parseAdded_stop hstop, parseAdded_stop hstop', c.skip_skip]
  · have hrest' : c.skip.skip.text = ch :: rest := by rwa [c.skip_skip]
    rw [parseAdded_operator hrest hs, parseAdded_operator hrest' hs, c.skip_skip]

/-- A product that is not continued is found complete, and its sum goes on. -/
theorem parseScaled_parseAdded (f : Float → Float) (h : c.Stops Scale.ofChar?) :
    ((parseScaled env depth x c).bind fun r => parseAdded env depth (f r.1) r.2) =
      parseAdded env depth (f x) c := by
  rw [parseScaled_stop h, Logged.value_bind, parseAdded_skip]

theorem parseClosing_of_close {rest : List Char} (h : c.skip.text = ')' :: rest) :
    parseClosing x c = .value (x, ⟨c.skip.position + Char.utf8Size ')', rest⟩) := by
  have hclose : only ')' ')' = some () := rfl
  obtain ⟨next, he, hnext⟩ := Cursor.eat?_of_some h hclose
  rw [parseClosing, he, ← hnext]

/-- A sum that is not continued is found complete before its closing parenthesis. -/
theorem parseAdded_parseClosing {rest : List Char} (h : c.skip.text = ')' :: rest) :
    ((parseAdded env depth x c).bind fun r => parseClosing r.1 r.2) =
      .value (x, ⟨c.skip.position + Char.utf8Size ')', rest⟩) := by
  have hstop : c.Stops Sign.ofChar? := by
    intro ch hch
    rw [h] at hch
    cases hch
    rfl
  have hskip : c.skip.skip.text = ')' :: rest := by rwa [c.skip_skip]
  rw [parseAdded_stop hstop, Logged.value_bind, parseClosing_of_close hskip, c.skip_skip]

end

theorem scale_ofChar?_of_sign {ch : Char} {s : Sign} (h : Sign.ofChar? ch = some s) :
    Scale.ofChar? ch = none := by
  have ht := Sign.text_mark_of_ofChar? h
  cases s
  · cases ht
    rfl
  · cases ht
    rfl

section
variable {k : TokenKind} {p : Char → Bool} (hp : ∀ x, tokenKind x = some k ↔ p x = true)
  {w : List Char} (hne : w ≠ []) (hw : ∀ c ∈ w, p c = true)
include hp hne hw

theorem not_of_apart {rest : List Char} (ha : Apart tokenKind w rest) :
    ∀ c ∈ rest.head?, p c = false := by
  intro c hc
  rw [Bool.eq_false_iff]
  intro hpc
  have hlast : w.getLast? = some (w.getLast hne) := List.getLast?_eq_some_getLast hne
  have hk : tokenKind (w.getLast hne) = some k := (hp _).2 (hw _ (List.getLast_mem hne))
  rcases ha _ hlast c hc with h | h
  · rw [hk] at h
    cases h
  · exact h (hk.trans ((hp c).2 hpc).symm)

/-- A word of a class is passed as a whole. -/
theorem skip_pass_word {piece rest : List Char} (ha : Apart tokenKind w (piece ++ rest))
    (position n : Nat) :
    (Cursor.mk position (List.replicate n ' ' ++ (w ++ piece) ++ rest)).skip.text.takeWhile p = w ∧
      (Cursor.mk position (List.replicate n ' ' ++ (w ++ piece) ++ rest)).skip.pass p =
        ⟨position + n + byteLength w, piece ++ rest⟩ := by
  have hstop := not_of_apart hp hne hw ha
  have hspace : ∀ ch ∈ w.head?, ch ≠ ' ' := by
    rintro ch hch rfl
    have hk := (hp ' ').2 (hw ' ' (List.mem_of_mem_head? hch))
    rw [tokenKind_space] at hk
    cases hk
  rw [Cursor.skip_word position n piece rest hne hspace]
  exact ⟨Cursor.takeWhile_word hw hstop, Cursor.pass_word hw hstop⟩

end

/-! ## Phrases -/

section
variable {env : Environment}

mutual

theorem FactorTree.parse_eq (x : FactorTree) {depth position : Nat} {piece rest : List Char}
    (h : SpellsBefore rest (x.lexemes.map Lexeme.text) piece)
    (hr : ∀ l ∈ x.lexemes, l.Resolved env) (hd : depth + x.depth ≤ maxOpenFactors) :
    parseFactor env depth ⟨position, piece ++ rest⟩ =
      ((x.value env.lookup).mapError .domain).bind fun y =>
        .value (y, ⟨position + byteLength piece, rest⟩) := by
  have hdepth : depth < maxOpenFactors := by
    have hpos := x.depth_pos
    omega
  cases x with
  | sign s x =>
    obtain ⟨n, more, rfl, hmore, -⟩ := h.of_cons
    obtain ⟨ch, hmark, hof, hch⟩ := s.exists_char
    simp only [FactorTree.depth] at hd
    rw [hmark, position_after_mark]
    have hskip := Cursor.skip_mark position n more rest hch
    rw [parseFactor_sign hdepth (congrArg Cursor.text hskip) hof, hskip,
      FactorTree.parse_eq x hmore (List.forall_mem_cons.1 hr).2 (by omega)]
    simp only [FactorTree.value, Logged.mapError_bind, Logged.bind_assoc, Logged.value_bind,
      Logged.mapError_value]
  | group e =>
    have htext : (FactorTree.group e).lexemes.map Lexeme.text =
        ['('] :: (e.lexemes.map Lexeme.text ++ [[')']]) := by
      rw [FactorTree.lexemes, List.map_cons, List.map_append]
      rfl
    rw [htext] at h
    simp only [FactorTree.lexemes, List.forall_mem_append, List.forall_mem_cons] at hr
    simp only [FactorTree.depth] at hd
    obtain ⟨n, more, rfl, hmore, -⟩ := h.of_cons
    obtain ⟨a, b, rfl, ha, hb⟩ := hmore.of_append
    obtain ⟨m, tail, rfl, htail, -⟩ := hb.of_cons
    cases htail
    have hskip := Cursor.skip_mark position n (a ++ (List.replicate m ' ' ++ ([')'] ++ []))) rest
      (by decide : '(' ≠ ' ')
    have hclose := Cursor.skip_mark (position + n + Char.utf8Size '(' + byteLength a) m [] rest
      (by decide : ')' ≠ ' ')
    -- the contents end at their parenthesis, so neither a product nor a sum goes on there
    have hstop : (Cursor.mk 0 (List.replicate m ' ' ++ ([')'] ++ []) ++ rest)).Stops
        Scale.ofChar? := by
      intro ch hch
      rw [Cursor.skip_mark 0 m [] rest (by decide)] at hch
      cases hch
      rfl
    refine (parseFactor_open hdepth (congrArg Cursor.text hskip)).trans ?_
    rw [hskip]
    dsimp only
    rw [List.append_assoc, SumTree.parse_eq e ha hr.2.1 (by omega) hstop, Logged.bind_assoc,
      FactorTree.value]
    congr 1
    funext x
    rw [parseAdded_parseClosing (congrArg Cursor.text hclose), hclose, position_after_mark,
      byteLength_append, ← Nat.add_assoc, position_after_mark]
    rfl
  | number n =>
    obtain ⟨m, tail, rfl, htail, ha⟩ := h.of_cons
    cases htail
    obtain ⟨htake, hpass⟩ :=
      skip_pass_word tokenKind_eq_numeral_iff n.text_ne_nil n.isNumeral.1 ha position m
    have hliteral : Cursor.literal _ = n.text := htake
    have hne := n.text_ne_nil
    rw [← hliteral] at hne
    rw [Lexeme.text, position_after_word, parseFactor_numeral hdepth hne, hliteral, hpass,
      n.read?_text]
    rfl
  | name a =>
    obtain ⟨m, tail, rfl, htail, ha⟩ := h.of_cons
    cases htail
    obtain ⟨hlower, hf, hb⟩ := hr _ List.mem_cons_self
    have hne := (Environment.isName_of_contains hb).1
    obtain ⟨htake, hpass⟩ := skip_pass_word tokenKind_eq_word_iff hne hlower ha position m
    have hword : Cursor.word _ = a := (congrArg String.ofList htake).trans String.ofList_toList
    rw [← htake] at hne
    rw [Lexeme.text, position_after_word, parseFactor_word hdepth (Cursor.word_ne_iff.2 hne), hword,
      hpass, hf, env.get?_eq_some_lookup hb]
    rfl
  | call f x =>
    obtain ⟨m, more, rfl, hmore, ha⟩ := h.of_cons
    simp only [FactorTree.depth] at hd
    have hne := name_toList_ne_nil f
    obtain ⟨htake, hpass⟩ :=
      skip_pass_word tokenKind_eq_word_iff hne (isLower_of_mem_name f) ha position m
    have hword : Cursor.word _ = f.name := (congrArg String.ofList htake).trans String.ofList_toList
    rw [← htake] at hne
    rw [Lexeme.text, position_after_word, parseFactor_word hdepth (Cursor.word_ne_iff.2 hne), hword,
      hpass, ofName?_name]
    dsimp only
    rw [FactorTree.parse_eq x hmore (List.forall_mem_cons.1 hr).2 (by omega)]
    simp only [FactorTree.value, Logged.mapError_bind, Logged.bind_assoc, Logged.value_bind]

theorem TermTree.parse_eq (t : TermTree) {depth position : Nat} {piece rest : List Char}
    (h : SpellsBefore rest (t.lexemes.map Lexeme.text) piece)
    (hr : ∀ l ∈ t.lexemes, l.Resolved env) (hd : depth + t.depth ≤ maxOpenFactors) :
    parseTerm env depth ⟨position, piece ++ rest⟩ =
      ((t.value env.lookup).mapError .domain).bind fun y =>
        parseScaled env depth y ⟨position + byteLength piece, rest⟩ := by
  cases t with
  | factor x =>
    rw [parseTerm_eq, FactorTree.parse_eq x h hr hd, Logged.bind_assoc]
    rfl
  | scale t o x =>
    simp only [TermTree.lexemes, List.map_append, List.map_cons] at h
    obtain ⟨a, b, rfl, ht, hb⟩ := h.of_append
    simp only [TermTree.lexemes, List.forall_mem_append, List.forall_mem_cons] at hr
    simp only [TermTree.depth] at hd
    obtain ⟨n, more, rfl, hx, -⟩ := hb.of_cons
    obtain ⟨ch, hmark, hof, hch⟩ := o.exists_char
    rw [hmark] at ht ⊢
    rw [List.append_assoc, TermTree.parse_eq t ht hr.1 (by omega), byteLength_append,
      ← Nat.add_assoc, position_after_mark]
    simp only [TermTree.value, Logged.mapError_bind, Logged.bind_assoc, Logged.mapError_value,
      Logged.value_bind]
    congr 1
    funext y
    have hskip := Cursor.skip_mark (position + byteLength a) n more rest hch
    rw [parseScaled_operator (congrArg Cursor.text hskip) hof, hskip,
      FactorTree.parse_eq x hx hr.2.2 (by omega), Logged.bind_assoc]
    rfl

theorem SumTree.parse_eq (e : SumTree) {depth position : Nat} {piece rest : List Char}
    (h : SpellsBefore rest (e.lexemes.map Lexeme.text) piece)
    (hr : ∀ l ∈ e.lexemes, l.Resolved env) (hd : depth + e.depth ≤ maxOpenFactors)
    (hstop : (Cursor.mk 0 rest).Stops Scale.ofChar?) :
    parseSum env depth ⟨position, piece ++ rest⟩ =
      ((e.value env.lookup).mapError .domain).bind fun x =>
        parseAdded env depth x ⟨position + byteLength piece, rest⟩ := by
  cases e with
  | term t =>
    rw [parseSum_eq, TermTree.parse_eq t h hr hd, Logged.bind_assoc]
    congr 1
    funext y
    exact parseScaled_parseAdded id hstop
  | add e s t =>
    simp only [SumTree.lexemes, List.map_append, List.map_cons] at h
    obtain ⟨a, b, rfl, he, hb⟩ := h.of_append
    simp only [SumTree.lexemes, List.forall_mem_append, List.forall_mem_cons] at hr
    simp only [SumTree.depth] at hd
    obtain ⟨n, more, rfl, ht, -⟩ := hb.of_cons
    obtain ⟨ch, hmark, hof, hch⟩ := s.exists_char
    rw [hmark] at he ⊢
    have hskip := Cursor.skip_mark (position + byteLength a) n more rest hch
    have hstop' : (Cursor.mk 0 (List.replicate n ' ' ++ ([ch] ++ more) ++ rest)).Stops
        Scale.ofChar? := by
      intro c hc
      rw [Cursor.skip_mark 0 n more rest hch] at hc
      cases hc
      exact scale_ofChar?_of_sign hof
    rw [List.append_assoc, SumTree.parse_eq e he hr.1 (by omega) hstop', byteLength_append,
      ← Nat.add_assoc, position_after_mark]
    simp only [SumTree.value, Logged.mapError_bind, Logged.bind_assoc, Logged.mapError_value,
      Logged.value_bind]
    congr 1
    funext x
    rw [parseAdded_operator (congrArg Cursor.text hskip) hof, hskip,
      TermTree.parse_eq t ht hr.2.2 (by omega), Logged.bind_assoc]
    congr 1
    funext y
    exact parseScaled_parseAdded (s.combine x) hstop

end

end

end LineCalculator.Expression
