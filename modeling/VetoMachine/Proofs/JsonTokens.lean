import VetoMachine.Json.Token
import VetoMachine.Proofs.JsonTexts

/-!
# Tokens and the grammar of JSON

The scanner agrees with the grammar.  A string is cut into a text that has its value, however its characters are
written (`WritesString.cuts`), a number is cut off at its end (`NumberLiteral.exists_parts`), and what is blank leaves
no token.  `Token.Cuts` says that a stretch of a text yields certain tokens before anything that may follow it.
-/

namespace VetoMachine.Json

/-! ### Strings -/

/-- A text of a string that ends at its quote and has the value `s`. -/
structure StringText.Spells (text : StringText) (s : String) : Prop where
  closed : text.ending = .closed
  value : text.value = .ok s

theorem StringText.Spells.check {text : StringText} {s : String} (h : text.Spells s) : text.check = .ok () := by
  rw [StringText.check, h.closed]
  rfl

private theorem hexDigit?_digitChar : ∀ n < 16,
    hexDigit? n.digitChar = some n ∧ hexDigit? n.digitChar.toUpper = some n := by
  decide

private theorem IsHexDigit.value {c : Char} {n : Nat} (h : IsHexDigit c n) : hexDigit? c = some n := by
  obtain ⟨hn, rfl | rfl⟩ := h
  · exact (hexDigit?_digitChar n hn).1
  · exact (hexDigit?_digitChar n hn).2

private theorem IsUnit.value {cs : List Char} {u : Nat} (h : IsUnit cs u) :
    ∃ a b c d, cs = [a, b, c, d] ∧ hexUnit? a b c d = some u := by
  obtain ⟨a, b, c, d, i, j, k, l, ha, hb, hc, hd, rfl, rfl⟩ := h
  refine ⟨a, b, c, d, rfl, ?_⟩
  simp only [hexUnit?, ha.value, hb.value, hc.value, hd.value]
  exact congrArg some (by omega)

namespace StringText

/-- Puts pieces before a text. -/
def prepend (pieces : List Piece) (t : StringText × List Char) : StringText × List Char :=
  (⟨pieces ++ t.1.pieces, t.1.ending⟩, t.2)

private theorem scan_unit {cs : List Char} {u : Nat} (h : IsUnit cs u) (rest : List Char) :
    scan ('\\' :: 'u' :: (cs ++ rest)) = prepend [.unit u] (scan rest) := by
  obtain ⟨a, b, c, d, rfl, hunit⟩ := h.value
  simp only [List.cons_append, List.nil_append, scan, hunit]
  rfl

private theorem shortEscape?_of_mem : ∀ p ∈ shortEscapes, p.1 ≠ 'u' ∧ shortEscape? p.1 = some p.2 := by
  decide

private theorem scan_short {e c : Char} (h : (e, c) ∈ shortEscapes) (rest : List Char) :
    scan ('\\' :: e :: rest) = prepend [.char c] (scan rest) := by
  obtain ⟨hunit, hescape⟩ := shortEscape?_of_mem (e, c) h
  rw [scan.eq_5 _ _ (fun _ _ _ _ _ he => absurd he hunit) (fun he => absurd he hunit), hescape]
  rfl

private theorem toNat_not_surrogate (c : Char) : isLowSurrogate c.toNat = false ∧ isHighSurrogate c.toNat = false := by
  have h : c.toNat < 0xD800 ∨ 0xDFFF < c.toNat ∧ c.toNat < 0x110000 := c.valid
  simp only [isLowSurrogate, isHighSurrogate, Bool.and_eq_false_iff, decide_eq_false_iff_not]
  omega

private theorem assemble_unit (c : Char) (pieces : List Piece) (ending : StringEnd) :
    assemble (.unit c.toNat :: pieces) ending = (c :: ·) <$> assemble pieces ending := by
  obtain ⟨hlow, hhigh⟩ := toNat_not_surrogate c
  rw [assemble.eq_def]
  simp [hlow, hhigh]

private theorem assemble_pair {c : Char} {i j : Nat} (hi : i < 0x400) (hj : j < 0x400)
    (hc : c.toNat = 0x10000 + i * 0x400 + j) (pieces : List Piece) (ending : StringEnd) :
    assemble (.unit (0xD800 + i) :: .unit (0xDC00 + j) :: pieces) ending = (c :: ·) <$> assemble pieces ending := by
  have hhigh : isLowSurrogate (0xD800 + i) = false ∧ isHighSurrogate (0xD800 + i) = true := by
    simp only [isLowSurrogate, isHighSurrogate, Bool.and_eq_false_iff, Bool.and_eq_true, decide_eq_false_iff_not,
      decide_eq_true_eq]
    omega
  have hlow : isLowSurrogate (0xDC00 + j) = true := by
    simp only [isLowSurrogate, Bool.and_eq_true, decide_eq_true_eq]
    omega
  have hpair : pairChar (0xD800 + i) (0xDC00 + j) = c := by
    have hvalue : (0xD800 + i - 0xD800) * 0x400 + (0xDC00 + j - 0xDC00) + 0x10000 = c.toNat := by omega
    exact (congrArg Char.ofNat hvalue).trans c.ofNat_toNat
  simp only [assemble, hhigh, hlow, hpair, Bool.false_eq_true, if_false, if_true]

/-- Whatever follows, the text of a character is cut into pieces of which the character is assembled. -/
private theorem exists_pieces {c : Char} {text : List Char} (h : WritesChar c text) :
    ∃ pieces, (∀ rest, scan (text ++ rest) = prepend pieces (scan rest)) ∧
      ∀ more ending, assemble (pieces ++ more) ending = (c :: ·) <$> assemble more ending := by
  cases h with
  | plain hcontrol hquote hslash =>
    refine ⟨[.char c], fun rest => ?_, fun more ending => rfl⟩
    rw [List.singleton_append, scan.eq_7, if_neg (by omega)]
    · rfl
    all_goals simp [hquote, hslash]
  | short h => exact ⟨[.char c], scan_short h, fun more ending => rfl⟩
  | unit h => exact ⟨[.unit c.toNat], scan_unit h, assemble_unit c⟩
  | @pair cs ds i j hi hj hcs hds hc =>
    refine ⟨[.unit (0xD800 + i), .unit (0xDC00 + j)], fun rest => ?_, assemble_pair hi hj hc⟩
    have hsplit : '\\' :: 'u' :: (cs ++ '\\' :: 'u' :: ds) ++ rest =
        '\\' :: 'u' :: (cs ++ '\\' :: 'u' :: (ds ++ rest)) := by
      simp
    rw [hsplit, scan_unit hcs, scan_unit hds]
    rfl

/-- Characters are read back from any of their texts. -/
theorem scan_writesChars {cs text : List Char} (h : WritesChars cs text) :
    ∃ pieces, (∀ rest, scan (text ++ '"' :: rest) = (⟨pieces, .closed⟩, rest)) ∧
      assemble pieces .closed = .ok cs := by
  induction h with
  | nil => exact ⟨[], fun rest => by simp [scan], rfl⟩
  | cons hc _ ih =>
    obtain ⟨pieces, hscan, hassemble⟩ := exists_pieces hc
    obtain ⟨more, hscan', hassemble'⟩ := ih
    refine ⟨pieces ++ more, fun rest => ?_, ?_⟩
    · rw [List.append_assoc, hscan, hscan']
      rfl
    · rw [hassemble, hassemble']
      rfl

end StringText

/-! ### Numbers -/

/-- Whether a text may go on after a number: it does not start with what could belong to the number. -/
def Delimited (rest : List Char) : Prop :=
  ∀ c ∈ rest.head?, c.isDigit = false ∧ c ≠ '.' ∧ c ≠ 'e' ∧ c ≠ 'E'

namespace Delimited

theorem nil : Delimited [] := nofun

theorem comma (rest : List Char) : Delimited (',' :: rest) := by simp [Delimited]

theorem colon (rest : List Char) : Delimited (':' :: rest) := by simp [Delimited]

theorem closeList (rest : List Char) : Delimited (']' :: rest) := by simp [Delimited]

theorem closeObject (rest : List Char) : Delimited ('}' :: rest) := by simp [Delimited]

theorem blanks {bs rest : List Char} (hbs : Blanks bs) (hrest : Delimited rest) : Delimited (bs ++ rest) := by
  cases bs with
  | nil => exact hrest
  | cons b bs =>
    have hb := hbs b (by simp)
    rintro c ⟨⟩
    simp only [List.mem_cons, List.not_mem_nil, or_false] at hb
    rcases hb with rfl | rfl | rfl | rfl <;> decide

end Delimited

/-- The digits that characters stand for. -/
def digitsOf (cs : List Char) : List Nat := cs.map fun c => c.toNat - '0'.toNat

theorem IsDigits.someDigits_append {cs : List Char} (hcs : IsDigits cs) {rest : List Char}
    (hrest : ∀ c ∈ rest.head?, c.isDigit = false) : someDigits (cs ++ rest) = .ok (digitsOf cs, rest) := by
  have htake : rest.takeWhile Char.isDigit = [] ∧ rest.dropWhile Char.isDigit = rest := by
    cases rest with
    | nil => exact ⟨rfl, rfl⟩
    | cons c rest => simp [hrest c rfl]
  have hspan : spanDigits (cs ++ rest) = (digitsOf cs, rest) := by
    rw [spanDigits, List.takeWhile_append_of_pos hcs.2, List.dropWhile_append_of_pos hcs.2, htake.1, htake.2,
      List.append_nil]
    rfl
  rw [someDigits, hspan]
  obtain ⟨c, cs', rfl⟩ := List.exists_cons_of_ne_nil hcs.1
  rfl

theorem IsWhole.scanWhole_append {cs : List Char} (hcs : IsWhole cs) {rest : List Char}
    (hrest : ∀ c ∈ rest.head?, c.isDigit = false) : scanWhole (cs ++ rest) = .ok (digitsOf cs, rest) := by
  rw [scanWhole, hcs.1.someDigits_append hrest]
  obtain ⟨c, cs', rfl⟩ := List.exists_cons_of_ne_nil hcs.1.1
  by_cases hzero : c = '0'
  · subst hzero
    rw [hcs.2 rfl]
    rfl
  · have hdigit : c.toNat - '0'.toNat ≠ 0 := by
      have hc := hcs.1.2 c (by simp)
      have hne : c.toNat ≠ 48 := fun h => hzero (Char.toNat_inj.1 h)
      simp [Char.isDigit, UInt32.le_iff_toNat_le] at hc
      show c.toNat - 48 ≠ 0
      have : 48 ≤ c.toNat := hc.1
      omega
    simp only [digitsOf, List.map_cons, bind, Except.bind]
    split
    · rename_i h
      simp at h
      exact absurd h.1 hdigit
    · rfl

private theorem IsExponent.head? {cs rest : List Char} (hcs : IsExponent cs) (hrest : Delimited rest) :
    ∀ c ∈ (cs ++ rest).head?, c.isDigit = false ∧ c ≠ '.' := by
  obtain rfl | ⟨e, he, -, -, -, -, rfl⟩ := hcs
  · exact fun c hc => ⟨(hrest c hc).1, (hrest c hc).2.1⟩
  · rintro c ⟨⟩
    simp only [List.mem_cons, List.not_mem_nil, or_false] at he
    rcases he with rfl | rfl <;> decide

private theorem IsFraction.head? {cs rest : List Char} (hcs : IsFraction cs)
    (hrest : ∀ c ∈ rest.head?, c.isDigit = false ∧ c ≠ '.') : ∀ c ∈ (cs ++ rest).head?, c.isDigit = false := by
  obtain rfl | ⟨-, -, rfl⟩ := hcs
  · exact fun c hc => (hrest c hc).1
  · rintro c ⟨⟩
    rfl

private theorem IsFraction.scanFraction_append {cs : List Char} (hcs : IsFraction cs) :
    ∃ digits, ∀ {rest}, (∀ c ∈ rest.head?, c.isDigit = false ∧ c ≠ '.') →
      scanFraction (cs ++ rest) = .ok (digits, rest) := by
  obtain rfl | ⟨digits, hdigits, rfl⟩ := hcs
  · refine ⟨[], fun {rest} hrest => ?_⟩
    rw [List.nil_append, scanFraction]
    rintro more rfl
    exact (hrest '.' rfl).2 rfl
  · exact ⟨digitsOf digits, fun hrest => hdigits.someDigits_append fun c hc => (hrest c hc).1⟩

private theorem exponentSign_append {sign digits : List Char} (hsign : sign ∈ [[], ['+'], ['-']])
    (hdigits : IsDigits digits) :
    ∃ negative, ∀ rest, exponentSign (sign ++ digits ++ rest) = (negative, digits ++ rest) := by
  obtain ⟨d, ds, rfl⟩ := List.exists_cons_of_ne_nil hdigits.1
  have hd := hdigits.2 d (by simp)
  simp only [List.mem_cons, List.not_mem_nil, or_false] at hsign
  obtain rfl | rfl | rfl := hsign
  · refine ⟨false, fun rest => ?_⟩
    simp only [List.nil_append, List.cons_append]
    refine exponentSign.eq_3 _ ?_ ?_ <;> rintro _ ⟨⟩ <;> cases hd
  · exact ⟨false, fun _ => rfl⟩
  · exact ⟨true, fun _ => rfl⟩

private theorem IsExponent.scanExponent_append {cs : List Char} (hcs : IsExponent cs) :
    ∃ exponent, ∀ {rest}, Delimited rest → scanExponent (cs ++ rest) = .ok (exponent, rest) := by
  obtain rfl | ⟨e, he, sign, hsign, digits, hdigits, rfl⟩ := hcs
  · refine ⟨none, fun {rest} hrest => ?_⟩
    cases rest with
    | nil => rfl
    | cons c rest =>
      obtain ⟨-, -, hlower, hupper⟩ := hrest c rfl
      rw [List.nil_append, scanExponent, if_neg (by simp [hlower, hupper])]
  · have he : e = 'e' ∨ e = 'E' := by simpa using he
    obtain ⟨negative, hnegative⟩ := exponentSign_append hsign hdigits
    let n := Int.ofNat (ofDigits (digitsOf digits))
    refine ⟨some (if negative then -n else n), fun {rest} hrest => ?_⟩
    have hdigits := hdigits.someDigits_append fun c hc => (hrest c hc).1
    rw [List.cons_append, scanExponent, if_pos he, hnegative]
    simp only [hdigits]
    rfl

private theorem IsNumber.scan_append {cs : List Char} (hcs : IsNumber cs) :
    ∃ parts, ∀ {rest}, Delimited rest → NumberText.scan (cs ++ rest) = (.complete parts, rest) := by
  obtain ⟨sign, hsign, whole, fraction, exponent, hwhole, hfraction, hexponent, rfl⟩ := hcs
  obtain ⟨digits, hscan⟩ := hfraction.scanFraction_append
  obtain ⟨power, hscan'⟩ := hexponent.scanExponent_append
  have hunsigned : ∀ negative {rest}, Delimited rest →
      scanUnsigned negative (whole ++ (fraction ++ (exponent ++ rest))) =
        .ok (⟨negative, digitsOf whole, digits, power⟩, rest) := by
    intro negative rest hrest
    have hafter := hexponent.head? hrest
    rw [scanUnsigned, hwhole.scanWhole_append (hfraction.head? hafter)]
    simp only [bind, Except.bind, hscan hafter, hscan' hrest]
    rfl
  refine ⟨⟨sign = ['-'], digitsOf whole, digits, power⟩, fun {rest} hrest => ?_⟩
  simp only [List.mem_cons, List.not_mem_nil, or_false] at hsign
  simp only [List.append_assoc]
  obtain rfl | rfl := hsign
  · obtain ⟨c, cs, rfl⟩ := List.exists_cons_of_ne_nil hwhole.1.1
    have hc := hwhole.1.2 c (by simp)
    rw [List.nil_append, NumberText.scan, hunsigned false hrest]
    · rfl
    · rintro more ⟨⟩
      cases hc
  · simp only [List.cons_append, List.nil_append, NumberText.scan, hunsigned true hrest]
    rfl

namespace NumberLiteral

/-- What the scanner makes of a number. -/
def text (n : NumberLiteral) : NumberText := (NumberText.scan n.chars).1

/-- A number has its parts, and is cut off where it ends. -/
theorem exists_parts (n : NumberLiteral) : ∃ parts, n.text = .complete parts ∧
    ∀ {rest}, Delimited rest → NumberText.scan (n.chars ++ rest) = (.complete parts, rest) := by
  obtain ⟨parts, hparts⟩ := n.isNumber.scan_append
  have htext := hparts .nil
  rw [List.append_nil] at htext
  exact ⟨parts, by rw [text, htext], hparts⟩

theorem check_text (n : NumberLiteral) : n.text.check = .ok () := by
  obtain ⟨parts, hparts, -⟩ := n.exists_parts
  rw [hparts]
  rfl

private theorem exists_chars_eq_cons (n : NumberLiteral) :
    ∃ c cs, n.chars = c :: cs ∧ (c = '-' ∨ c.isDigit = true) := by
  obtain ⟨sign, hsign, whole, fraction, exponent, hwhole, -, -, hchars⟩ := n.isNumber
  simp only [List.mem_cons, List.not_mem_nil, or_false] at hsign
  obtain rfl | rfl := hsign
  · obtain ⟨c, cs, rfl⟩ := List.exists_cons_of_ne_nil hwhole.1.1
    exact ⟨c, _, hchars, .inr (hwhole.1.2 c (by simp))⟩
  · exact ⟨'-', _, hchars, .inl rfl⟩

end NumberLiteral

/-! ### Tokens -/

namespace Token

theorem scanWithin_nil (fuel : Nat) : scanWithin fuel [] = [] := by
  cases fuel <;> rfl

/-- The text `cs` before `rest` is cut into the tokens `ts`, with at most one step for each character. -/
def Cuts (cs rest : List Char) (ts : List Token) : Prop :=
  ∃ steps ≤ cs.length, ∀ fuel, scanWithin (steps + fuel) (cs ++ rest) = ts ++ scanWithin fuel rest

namespace Cuts

theorem nil (rest : List Char) : Cuts [] rest [] := ⟨0, Nat.le_refl 0, fun fuel => by simp⟩

theorem append {cs ds rest : List Char} {ts us : List Token} (hcs : Cuts cs (ds ++ rest) ts) (hds : Cuts ds rest us) :
    Cuts (cs ++ ds) rest (ts ++ us) := by
  obtain ⟨steps, hsteps, hcs⟩ := hcs
  obtain ⟨more, hmore, hds⟩ := hds
  refine ⟨steps + more, by simp; omega, fun fuel => ?_⟩
  rw [Nat.add_assoc, List.append_assoc, hcs, hds, List.append_assoc]

/-- A stretch that is one token. -/
theorem token {c : Char} {cs rest : List Char} {t : Token} (hblank : isBlank c = false)
    (hnext : next c (cs ++ rest) = (t, rest)) : Cuts (c :: cs) rest [t] := by
  refine ⟨1, by simp, fun fuel => ?_⟩
  rw [Nat.add_comm, List.cons_append, scanWithin, hblank, if_neg Bool.false_ne_true, hnext]
  rfl

theorem blanks {bs : List Char} (hbs : Blanks bs) (rest : List Char) : Cuts bs rest [] := by
  induction bs with
  | nil => exact nil rest
  | cons b bs ih =>
    have hb : isBlank b = true := by
      have := hbs b (by simp)
      simp only [List.mem_cons, List.not_mem_nil, or_false] at this
      rcases this with rfl | rfl | rfl | rfl <;> rfl
    have hone : Cuts [b] (bs ++ rest) [] := by
      refine ⟨1, Nat.le_refl 1, fun fuel => ?_⟩
      rw [Nat.add_comm, List.singleton_append, scanWithin, hb, if_pos rfl]
      rfl
    exact hone.append (ih fun c hc => hbs c (by simp [hc]))

/-- Blanks around a stretch leave no token. -/
theorem padded {bs cs as rest : List Char} {ts : List Token} (hbs : Blanks bs) (hcs : Cuts cs (as ++ rest) ts)
    (has : Blanks as) : Cuts (bs ++ (cs ++ as)) rest ts := by
  have hafter := hcs.append (blanks has rest)
  rw [List.append_nil] at hafter
  exact (blanks hbs _).append hafter

/-- The tokens of a whole text. -/
theorem scan_eq {text : String} {ts : List Token} (h : Cuts text.toList [] ts) : scan text = ts := by
  obtain ⟨steps, hsteps, hscan⟩ := h
  have hall := hscan (text.toList.length - steps)
  rw [List.append_nil, scanWithin_nil, List.append_nil, Nat.add_sub_cancel' hsteps] at hall
  exact hall

end Cuts

end Token

theorem WritesString.cuts {s : String} {cs : List Char} (h : WritesString s cs) :
    ∃ text : StringText, text.Spells s ∧ ∀ rest, Token.Cuts cs rest [.scalar (.string text)] := by
  obtain ⟨body, hbody, rfl⟩ := h
  obtain ⟨pieces, hscan, hassemble⟩ := StringText.scan_writesChars hbody
  refine ⟨⟨pieces, .closed⟩, ⟨rfl, ?_⟩, fun rest => .token rfl ?_⟩
  · rw [StringText.value, hassemble]
    exact congrArg Except.ok String.ofList_toList
  · rw [List.append_assoc, List.singleton_append, Token.next, hscan]

theorem NumberLiteral.cuts (n : NumberLiteral) {rest : List Char} (hrest : Delimited rest) :
    Token.Cuts n.chars rest [.scalar (.number n.text)] := by
  obtain ⟨parts, htext, hscan⟩ := n.exists_parts
  obtain ⟨c, cs, hchars, hfirst⟩ := n.exists_chars_eq_cons
  have hblank : isBlank c = false := by
    rcases hfirst with rfl | hdigit
    · rfl
    · simp only [isBlank, Bool.or_eq_false_iff, decide_eq_false_iff_not]
      refine ⟨⟨⟨?_, ?_⟩, ?_⟩, ?_⟩ <;> rintro rfl <;> cases hdigit
  have hscan := hscan hrest
  rw [hchars] at hscan ⊢
  rw [htext]
  refine .token hblank ?_
  unfold Token.next
  split
  case h_11 => rw [if_pos hfirst, ← List.cons_append, hscan]
  all_goals exact absurd hfirst (by decide)

end VetoMachine.Json
