import Mathlib.Tactic.SplitIfs
import WorkloadReplay.Json.Decode

/-!
# Reading a value that has something after it

What the reader takes from the front of a text does not depend on what follows it. Only a number has
no end of its own: it must not be followed by a character that would go on with it (`Stops`).

The lemmas go along the functions of the reader. `Extends` says so of one reader, and the lemmas
after it of readers that are made of others; in the end, a value that is read from a text is read
from any longer text, with the same or more fuel (`readTree_append`).
-/

namespace WorkloadReplay

namespace Json

variable {cs r x : List Char}

/-- A text does not begin with a character that would go on with a number. -/
def Stops : List Char → Prop
  | [] => True
  | c :: _ => isDigit c = false ∧ c ≠ '.' ∧ c ≠ 'e' ∧ c ≠ 'E'

/-! ## Readers -/

section Readers

variable {α β : Type} {read read' : List Char → Option (α × List Char)}

/-- What one reader reads of a text, another one reads of any longer text. -/
structure Extends (read read' : List Char → Option (α × List Char)) : Prop where
  append : ∀ {cs x : List Char} {a : α} {r : List Char}, read cs = some (a, r) → Stops x →
    read' (cs ++ x) = some (a, r ++ x)

/-- A reader that reads nothing. -/
theorem extends_none : Extends (fun _ => none) read' where
  append h := by simp at h

/-- A reader that has come to its end. -/
theorem extends_some (a : α) : Extends (fun cs => some (a, cs)) (fun cs => some (a, cs)) where
  append h _ := by
    obtain ⟨rfl, rfl⟩ := Prod.mk.inj (Option.some.inj h)
    rfl

/-- A reader that goes on with another one. -/
theorem Extends.bind {more more' : α → List Char → Option (β × List Char)}
    (h : Extends read read') (hmore : ∀ a, Extends (more a) (more' a)) :
    Extends (fun cs => (read cs).bind fun found => more found.1 found.2)
      (fun cs => (read' cs).bind fun found => more' found.1 found.2) := by
  refine ⟨fun {cs x b r} hread hx => ?_⟩
  obtain ⟨⟨a, r'⟩, hfirst, hrest⟩ := Option.bind_eq_some_iff.mp hread
  rw [h.append hfirst hx]
  exact (hmore a).append hrest hx

/-- A reader that makes something of what it reads. -/
theorem Extends.map (h : Extends read read') (f : α → β) :
    Extends (fun cs => (read cs).map fun found => (f found.1, found.2))
      (fun cs => (read' cs).map fun found => (f found.1, found.2)) := by
  refine ⟨fun {cs x b r} hread hx => ?_⟩
  obtain ⟨⟨a, r'⟩, hfirst, heq⟩ := Option.map_eq_some_iff.mp hread
  obtain ⟨rfl, rfl⟩ := Prod.mk.inj heq
  rw [h.append hfirst hx]
  rfl

end Readers

/-! ## Blanks -/

/-- A character that is no blank is not skipped. -/
theorem skipBlank_of_not_blank {c : Char} (h : ¬ (c = ' ' ∨ c = '\n' ∨ c = '\t' ∨ c = '\r')) :
    skipBlank (c :: cs) = c :: cs := by
  rw [skipBlank, if_neg h]

/-- Blanks before another character are skipped, whatever follows. -/
theorem skipBlank_append (h : skipBlank cs ≠ []) : skipBlank (cs ++ x) = skipBlank cs ++ x := by
  induction cs with
  | nil => exact absurd rfl h
  | cons c cs ih =>
    rw [List.cons_append]
    by_cases hc : c = ' ' ∨ c = '\n' ∨ c = '\t' ∨ c = '\r'
    · rw [skipBlank, if_pos hc] at h ⊢
      rw [skipBlank, if_pos hc]
      exact ih h
    · rw [skipBlank_of_not_blank hc, skipBlank_of_not_blank hc]
      rfl

/-- The same where it is known which character comes after the blanks. -/
theorem skipBlank_append_of_eq {c : Char} (h : skipBlank cs = c :: r) :
    skipBlank (cs ++ x) = c :: (r ++ x) := by
  have hne : skipBlank cs ≠ [] := by simp [h]
  rw [skipBlank_append hne, h]
  rfl

/-- A text of blanks is skipped as a whole. -/
theorem skipBlank_blanks_append (h : skipBlank cs = []) : skipBlank (cs ++ x) = skipBlank x := by
  induction cs with
  | nil => rfl
  | cons c cs ih =>
    by_cases hc : c = ' ' ∨ c = '\n' ∨ c = '\t' ∨ c = '\r'
    · rw [skipBlank, if_pos hc] at h
      rw [List.cons_append, skipBlank, if_pos hc]
      exact ih h
    · simp [skipBlank, hc] at h

/-! ## Strings -/

/-- A closing quote ends the pieces. -/
@[simp] theorem readPieces_quote (cs : List Char) : readPieces ('"' :: cs) = some ([], cs) := by
  rw [readPieces]

/-- A long escape is one piece. -/
theorem readPieces_code {a b c d : Char} {n : Nat} (h : hex4? a b c d = some n) (cs : List Char) :
    readPieces ('\\' :: 'u' :: a :: b :: c :: d :: cs) =
      (readPieces cs).map fun found => (Piece.ofCode n :: found.1, found.2) := by
  rw [readPieces, h]

/-- A short escape is one piece. -/
theorem readPieces_short {c e : Char} (h : shortEscape? c = some e) (cs : List Char) :
    readPieces ('\\' :: c :: cs) =
      (readPieces cs).map fun found => (.char e :: found.1, found.2) := by
  -- No short escape is written with the letter of the long one.
  have hc : c ≠ 'u' := by
    rintro rfl
    simp [shortEscape?] at h
  rw [readPieces, h]
  simp [hc]

/-- A character that needs no escape is one piece. -/
theorem readPieces_plain {c : Char} (hquote : c ≠ '"') (hplain : ¬ (c.toNat < 32 ∨ c = '\\'))
    (cs : List Char) :
    readPieces (c :: cs) = (readPieces cs).map fun found => (.char c :: found.1, found.2) := by
  have hc : c ≠ '\\' := fun heq => hplain (.inr heq)
  rw [readPieces, if_neg hplain]
  · exact hquote
  · simp [hc]
  · simp [hc]

/-- Pieces end at the closing quote, whatever follows. -/
theorem readPieces_append {ps : List Piece} (h : readPieces cs = some (ps, r)) :
    readPieces (cs ++ x) = some (ps, r ++ x) := by
  -- Along the reader: each case takes one piece from the front, or fails.
  induction cs using readPieces.induct generalizing ps r with
  | case1 => simp [readPieces] at h
  | case2 rest =>
    obtain ⟨rfl, rfl⟩ := Prod.mk.inj (Option.some.inj ((readPieces_quote rest).symm.trans h))
    exact readPieces_quote _
  | case3 a b c d rest hcode => simp [readPieces, hcode] at h
  | case4 a b c d rest n hcode ih =>
    rw [readPieces_code hcode] at h
    obtain ⟨⟨ps', r'⟩, hrest, heq⟩ := Option.map_eq_some_iff.mp h
    obtain ⟨rfl, rfl⟩ := Prod.mk.inj heq
    simp only [List.cons_append]
    rw [readPieces_code hcode, ih hrest]
    rfl
  | case5 c rest hlong hshort =>
    rw [readPieces, hshort] at h
    · simp at h
    · exact hlong
  | case6 c rest hlong e hshort ih =>
    rw [readPieces_short hshort] at h
    obtain ⟨⟨ps', r'⟩, hrest, heq⟩ := Option.map_eq_some_iff.mp h
    obtain ⟨rfl, rfl⟩ := Prod.mk.inj heq
    rw [List.cons_append, List.cons_append, readPieces_short hshort, ih hrest]
    rfl
  | case7 c rest hquote hlong hshort hcontrol =>
    rw [readPieces, if_pos hcontrol] at h
    · simp at h
    · exact hquote
    · exact hlong
    · exact hshort
  | case8 c rest hquote hlong hshort hplain ih =>
    rw [readPieces_plain hquote hplain] at h
    obtain ⟨⟨ps', r'⟩, hrest, heq⟩ := Option.map_eq_some_iff.mp h
    obtain ⟨rfl, rfl⟩ := Prod.mk.inj heq
    rw [List.cons_append, readPieces_plain hquote hplain, ih hrest]
    rfl

/-- So does a string. -/
theorem extends_readString : Extends readString readString := by
  have hpieces : Extends readPieces readPieces := ⟨fun h _ => readPieces_append h⟩
  exact hpieces.map joinPieces

/-! ## Numbers -/

/-- Digits are read up to a character that is none. -/
theorem spanDigits_append (cs : List Char) (hx : Stops x) :
    spanDigits (cs ++ x) = ((spanDigits cs).1, (spanDigits cs).2 ++ x) := by
  induction cs with
  | nil =>
    cases x with
    | nil => rfl
    | cons c x => simp [spanDigits, hx.1]
  | cons c cs ih =>
    rw [List.cons_append, spanDigits, spanDigits]
    split
    · rw [ih]
    · rfl

/-- The digits that have been read are those at the front, and there is one. -/
theorem readDigits?_eq_some {ds : List Char} :
    readDigits? cs = some (ds, r) ↔ spanDigits cs = (ds, r) ∧ ds ≠ [] := by
  unfold readDigits?
  rcases spanDigits cs with ⟨_ | ⟨d, ds'⟩, r'⟩
  · simp only [List.isEmpty_nil, if_true, reduceCtorEq, Prod.mk.injEq, false_iff]
    rintro ⟨⟨rfl, -⟩, hne⟩
    exact hne rfl
  · simp only [List.isEmpty_cons, Bool.false_eq_true, if_false, Option.some.injEq, Prod.mk.injEq,
      iff_self_and]
    rintro ⟨rfl, -⟩
    simp

/-- There is at least one digit, and no other character in between. -/
theorem extends_readDigits : Extends readDigits? readDigits? := by
  refine ⟨fun {cs x ds r} h hx => ?_⟩
  obtain ⟨hspan, hne⟩ := readDigits?_eq_some.mp h
  rw [readDigits?_eq_some, spanDigits_append cs hx, hspan]
  exact ⟨rfl, hne⟩

/-- A sign stands at the front. -/
theorem readSign_append (h : cs ≠ []) :
    readSign (cs ++ x) = ((readSign cs).1, (readSign cs).2 ++ x) := by
  cases cs with
  | nil => exact absurd rfl h
  | cons c cs =>
    by_cases hminus : c = '-'
    · rw [hminus]
      rfl
    · by_cases hplus : c = '+'
      · rw [hplus]
        rfl
      · simp [readSign, hminus, hplus]

/-- An exponent is read up to the end of its digits, and if there is none, there is none in the
longer text. -/
theorem extends_readExponent : Extends readExponent readExponent := by
  refine ⟨fun {cs x e r} h hx => ?_⟩
  cases cs with
  | nil =>
    obtain ⟨rfl, rfl⟩ := Prod.mk.inj (Option.some.inj h)
    cases x with
    | nil => rfl
    | cons c x => simp [readExponent, hx.2.2.1, hx.2.2.2]
  | cons c cs =>
    rw [List.cons_append, readExponent]
    rw [readExponent] at h
    by_cases hc : c = 'e' ∨ c = 'E'
    · rw [if_pos hc] at h ⊢
      rcases hsign : readSign cs with ⟨negative, cs'⟩
      rw [hsign] at h
      obtain ⟨⟨ds, r'⟩, hdigits, heq⟩ := Option.map_eq_some_iff.mp h
      obtain ⟨rfl, rfl⟩ := Prod.mk.inj heq
      -- The digits have to be there before the end, so the sign is.
      have hne : cs ≠ [] := by
        rintro rfl
        obtain ⟨-, rfl⟩ := Prod.mk.inj hsign
        simp [readDigits?, spanDigits] at hdigits
      rw [readSign_append hne, hsign]
      dsimp only
      rw [extends_readDigits.append hdigits hx]
      rfl
    · rw [if_neg hc] at h ⊢
      obtain ⟨rfl, rfl⟩ := Prod.mk.inj (Option.some.inj h)
      rfl

/-- A first digit that is no zero has more digits after it. -/
theorem readWhole?_of_ne_zero {c : Char} (h : c ≠ '0') :
    readWhole? (c :: cs) = readDigits? (c :: cs) := by
  rw [readWhole?]
  simp [h]

/-- The digits before the point. -/
theorem extends_readWhole : Extends readWhole? readWhole? := by
  refine ⟨fun {cs x ds r} h hx => ?_⟩
  cases cs with
  | nil => simp [readWhole?, readDigits?, spanDigits] at h
  | cons c cs =>
    by_cases hzero : c = '0'
    · subst hzero
      obtain ⟨rfl, rfl⟩ := Prod.mk.inj (Option.some.inj h)
      rfl
    · rw [readWhole?_of_ne_zero hzero] at h
      rw [List.cons_append, readWhole?_of_ne_zero hzero]
      exact extends_readDigits.append h hx

/-- Without a point there is no fraction. -/
theorem readFraction?_of_no_point (h : ∀ r, cs ≠ '.' :: r) :
    readFraction? cs = some (none, cs) := by
  rw [readFraction?]
  exact fun r heq => h r heq

/-- The digits after the point. -/
theorem extends_readFraction : Extends readFraction? readFraction? := by
  refine ⟨fun {cs x ds r} h hx => ?_⟩
  -- Without a point nothing is read, and then what follows must not begin with one.
  by_cases hpoint : ∃ r, cs = '.' :: r
  · obtain ⟨r', rfl⟩ := hpoint
    exact (extends_readDigits.map some).append h hx
  · have hnone : ∀ r, cs ≠ '.' :: r := fun r heq => hpoint ⟨r, heq⟩
    rw [readFraction?_of_no_point hnone] at h
    obtain ⟨rfl, rfl⟩ := Prod.mk.inj (Option.some.inj h)
    refine readFraction?_of_no_point fun r heq => ?_
    cases cs with
    | nil =>
      rw [List.nil_append] at heq
      rw [heq] at hx
      exact hx.2.1 rfl
    | cons c cs => exact hnone cs (by rw [(List.cons.inj heq).1])

/-- A number without its sign. -/
theorem extends_readMagnitude (negative : Bool) :
    Extends (readMagnitude negative) (readMagnitude negative) := by
  have hparts := extends_readWhole.bind fun whole =>
    extends_readFraction.bind fun fraction =>
      extends_readExponent.bind fun exponent =>
        extends_some (Numeral.mk negative whole fraction exponent)
  exact hparts

/-- A number without a sign begins with a digit. -/
theorem head_of_readMagnitude {negative : Bool} {n : Numeral}
    (h : readMagnitude negative cs = some (n, r)) :
    ∃ c cs', cs = c :: cs' ∧ isDigit c = true := by
  obtain ⟨⟨whole, r'⟩, hwhole, -⟩ := Option.bind_eq_some_iff.mp h
  cases cs with
  | nil => simp [readWhole?, readDigits?, spanDigits] at hwhole
  | cons c cs' =>
    refine ⟨c, cs', rfl, ?_⟩
    by_cases hzero : c = '0'
    · rw [hzero]
      rfl
    · rw [readWhole?_of_ne_zero hzero, readDigits?_eq_some, spanDigits] at hwhole
      cases hc : isDigit c with
      | true => rfl
      | false =>
        rw [if_neg (by simp [hc])] at hwhole
        exact absurd (Prod.mk.inj hwhole.1).1.symm hwhole.2

/-! ## Items -/

section Items

variable {α : Type} {close c : Char} {read read' : List Char → Option (α × List Char)}
  {items items' : List Char → Option (List α × List Char)}

/-- A reader that passes over blanks first. -/
theorem Extends.skipBlank (h : Extends read read') (hnil : read [] = none) :
    Extends (fun cs => read (skipBlank cs)) (fun cs => read' (skipBlank cs)) := by
  refine ⟨fun {cs x a r} hread hx => ?_⟩
  have hsome : Json.skipBlank cs ≠ [] := by
    intro hblank
    simp [hblank, hnil] at hread
  rw [skipBlank_append hsome]
  exact h.append hread hx

/-- The closing character comes first. -/
theorem readEnclosed_close (h : skipBlank cs = close :: r) :
    readEnclosed close items cs = some ([], r) := by
  rw [readEnclosed, h]
  exact if_pos rfl

/-- Something else comes first. -/
theorem readEnclosed_open (h : skipBlank cs = c :: r) (hc : c ≠ close) :
    readEnclosed close items cs = items (c :: r) := by
  rw [readEnclosed, h]
  exact if_neg hc

/-- A comma comes next. -/
theorem readMore_comma (a : α) (h : skipBlank cs = ',' :: r) :
    readMore close items a cs = (items r).map fun found => (a :: found.1, found.2) := by
  rw [readMore, h]
  exact if_pos rfl

/-- The closing character comes next. -/
theorem readMore_close (a : α) (h : skipBlank cs = close :: r) (hclose : close ≠ ',') :
    readMore close items a cs = some ([a], r) := by
  rw [readMore, h]
  exact (if_neg hclose).trans (if_pos rfl)

/-- Items between an opening and a closing character. -/
theorem Extends.enclosed (h : Extends items items') :
    Extends (readEnclosed close items) (readEnclosed close items') := by
  refine ⟨fun {cs x as r} hread hx => ?_⟩
  unfold readEnclosed at hread
  split at hread
  · simp at hread
  · rename_i c r' hskip
    have hskip' : Json.skipBlank (cs ++ x) = c :: (r' ++ x) := skipBlank_append_of_eq hskip
    split at hread
    · rename_i hc
      obtain ⟨rfl, rfl⟩ := Prod.mk.inj (Option.some.inj hread)
      exact readEnclosed_close (hc ▸ hskip')
    · rename_i hc
      rw [readEnclosed_open hskip' hc]
      exact h.append hread hx

/-- What follows an item. -/
theorem Extends.more (h : Extends items items') (hclose : close ≠ ',') (a : α) :
    Extends (readMore close items a) (readMore close items' a) := by
  refine ⟨fun {cs x as r} hread hx => ?_⟩
  unfold readMore at hread
  split at hread
  · simp at hread
  · rename_i c r' hskip
    have hskip' : Json.skipBlank (cs ++ x) = c :: (r' ++ x) := skipBlank_append_of_eq hskip
    split_ifs at hread with hcomma hc
    · obtain ⟨⟨as', r''⟩, hrest, heq⟩ := Option.map_eq_some_iff.mp hread
      obtain ⟨rfl, rfl⟩ := Prod.mk.inj heq
      rw [readMore_comma a (hcomma ▸ hskip'), h.append hrest hx]
      rfl
    · obtain ⟨rfl, rfl⟩ := Prod.mk.inj (Option.some.inj hread)
      exact readMore_close a (hc ▸ hskip') hclose

end Items

/-! ## Values -/

section Values

variable {items items' : List Char → Option (List Tree × List Char)}
  {fields fields' : List Char → Option (List (String × Tree) × List Char)}
  {tree tree' : List Char → Option (Tree × List Char)}

/-- A quote begins a string. -/
theorem readValue_quote (r : List Char) : readValue items fields ('"' :: r) =
    (readString r).map fun found => (.text (found.1.map String.ofList), found.2) := rfl

/-- A bracket begins a list. -/
theorem readValue_bracket (r : List Char) : readValue items fields ('[' :: r) =
    (readEnclosed ']' items r).map fun found => (.list found.1, found.2) := rfl

/-- A brace begins a record. -/
theorem readValue_brace (r : List Char) : readValue items fields ('\x7b' :: r) =
    (readEnclosed '\x7d' fields r).map fun found => (.record found.1, found.2) := rfl

/-- A minus sign begins a number. -/
theorem readValue_minus (r : List Char) : readValue items fields ('-' :: r) =
    (readMagnitude true r).map fun found => (.number found.1, found.2) := rfl

/-- So does a digit. -/
theorem readValue_digit {c : Char} (hc : isDigit c = true) (r : List Char) :
    readValue items fields (c :: r) =
      (readMagnitude false (c :: r)).map fun found => (.number found.1, found.2) := by
  have hne : ∀ {d : Char}, isDigit d = false → c ≠ d := by
    rintro d hd rfl
    simp [hc] at hd
  unfold readValue
  split
  -- No other value begins with a digit.
  case h_8 => rfl
  all_goals
    rename_i heq
    exact absurd (List.cons.inj heq).1 (hne (by decide))

/-- A value, with its items and its fields. -/
theorem Extends.value (hitems : Extends items items') (hfields : Extends fields fields') :
    Extends (readValue items fields) (readValue items' fields') := by
  refine ⟨fun {cs x t r} h hx => ?_⟩
  unfold readValue at h
  split at h
  case h_1 | h_2 | h_3 =>
    obtain ⟨rfl, rfl⟩ := Prod.mk.inj (Option.some.inj h)
    rfl
  case h_4 r' =>
    exact (extends_readString.map fun s => Tree.text (s.map String.ofList)).append h hx
  case h_5 r' => exact (hitems.enclosed.map Tree.list).append h hx
  case h_6 r' => exact (hfields.enclosed.map Tree.record).append h hx
  case h_7 r' => exact ((extends_readMagnitude true).map Tree.number).append h hx
  case h_8 =>
    have hlonger := ((extends_readMagnitude false).map Tree.number).append h hx
    obtain ⟨found, hread, -⟩ := Option.map_eq_some_iff.mp h
    obtain ⟨c, r', rfl, hc⟩ := head_of_readMagnitude hread
    rw [List.cons_append, readValue_digit hc]
    exact hlonger

/-- A field that is read is a string, a colon and a value. -/
theorem readField_eq_some {field : String × Tree} :
    readField tree cs = some (field, r) ↔
      ∃ r₀ key r₁ r₂ t, skipBlank cs = '"' :: r₀ ∧ readString r₀ = some (some key, r₁) ∧
        skipBlank r₁ = ':' :: r₂ ∧ tree r₂ = some (t, r) ∧ field = (String.ofList key, t) := by
  constructor
  · intro h
    unfold readField at h
    split at h
    · rename_i r₀ hquote
      split at h
      · rename_i key r₁ hkey
        split at h
        · rename_i r₂ hcolon
          obtain ⟨⟨t, r'⟩, hvalue, heq⟩ := Option.map_eq_some_iff.mp h
          obtain ⟨rfl, rfl⟩ := Prod.mk.inj heq
          exact ⟨r₀, key, r₁, r₂, t, hquote, hkey, hcolon, hvalue, rfl⟩
        · simp at h
      · simp at h
    · simp at h
  · rintro ⟨r₀, key, r₁, r₂, t, hquote, hkey, hcolon, hvalue, rfl⟩
    simp only [readField, hquote, hkey, hcolon, hvalue, Option.map_some]

/-- A field, with its value. -/
theorem Extends.field (h : Extends tree tree') :
    Extends (readField tree) (readField tree') := by
  refine ⟨fun {cs x field r} hread hx => ?_⟩
  obtain ⟨r₀, key, r₁, r₂, t, hquote, hkey, hcolon, hvalue, rfl⟩ := readField_eq_some.mp hread
  exact readField_eq_some.mpr ⟨r₀ ++ x, key, r₁ ++ x, r₂ ++ x, t, skipBlank_append_of_eq hquote,
    extends_readString.append hkey hx, skipBlank_append_of_eq hcolon, h.append hvalue hx, rfl⟩

end Values

/-- A value is read after the blanks before it. -/
theorem readTree_succ (fuel : Nat) (cs : List Char) :
    readTree (fuel + 1) cs = readValue (readItems fuel) (readFields fuel) (skipBlank cs) := rfl

/-- What the readers read of a text, they read of any longer text with the same or more fuel. -/
theorem extends_read (fuel : Nat) : ∀ fuel', fuel ≤ fuel' →
    Extends (readTree fuel) (readTree fuel') ∧ Extends (readItems fuel) (readItems fuel') ∧
      Extends (readFields fuel) (readFields fuel') := by
  -- The three readers call each other with one unit of fuel less.
  induction fuel with
  | zero => exact fun fuel' _ => ⟨extends_none, extends_none, extends_none⟩
  | succ fuel ih =>
    intro fuel' hfuel
    obtain ⟨fuel', rfl⟩ : ∃ n, fuel' = n + 1 := ⟨fuel' - 1, by omega⟩
    obtain ⟨htree, hitems, hfields⟩ := ih fuel' (by omega)
    refine ⟨?_, ?_, ?_⟩
    · exact (hitems.value hfields).skipBlank rfl
    · exact htree.bind fun t => hitems.more (by decide) t
    · exact htree.field.bind fun field => hfields.more (by decide) field

/-- A value that is read from a text is read from any longer text that does not go on with a number,
with the same or more fuel. -/
theorem readTree_append {fuel fuel' : Nat} {t : Tree} (h : readTree fuel cs = some (t, r))
    (hfuel : fuel ≤ fuel') (hx : Stops x) : readTree fuel' (cs ++ x) = some (t, r ++ x) :=
  (extends_read fuel fuel' hfuel).1.append h hx

end Json

end WorkloadReplay
