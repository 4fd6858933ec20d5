import Mathlib.Data.List.Forall2
import Mathlib.Tactic.SplitIfs
import WorkloadReplay.Json.Printer
import WorkloadReplay.Proofs.Json.Reading

/-!
# Reading what has been printed

The text of a value on one line is read back as a tree, and nothing of what follows it is taken
(`Reads`). A string gives its characters again, whatever they are, a whole number its digits, and an
object a record of what its fields give. `reads_of_ofText?` and `Reads.ofText?` say that this is the
same as reading the text of the value alone.
-/

namespace WorkloadReplay

namespace Json

variable {x : List Char}

/-! ## Strings -/

/-- A hexadecimal digit names its number. -/
theorem hexValue?_hexDigit {n : Nat} (h : n < 16) : hexValue? (hexDigit n) = some n := by
  have hall : ∀ d < 16, hexValue? (hexDigit d) = some d := by decide
  exact hall n h

/-- A control is written with two digits that name it. -/
theorem hex4?_control {n : Nat} (h : n < 32) :
    hex4? '0' '0' (hexDigit (n / 16)) (hexDigit (n % 16)) = some n := by
  have hhigh := hexValue?_hexDigit (n := n / 16) (by omega)
  have hlow := hexValue?_hexDigit (n := n % 16) (by omega)
  have hsum : ((0 * 16 + 0) * 16 + n / 16) * 16 + n % 16 = n := by omega
  have hzero : hexValue? '0' = some 0 := rfl
  simp only [hex4?, hzero, hhigh, hlow, hsum, Option.bind_eq_bind, Option.bind_some]

/-- A character is read back from what stands for it in a string. -/
theorem readPieces_escapeChar (c : Char) (cs : List Char) :
    readPieces (escapeChar c ++ cs) =
      (readPieces cs).map fun found => (.char c :: found.1, found.2) := by
  unfold escapeChar
  split_ifs with hquote hback hnewline hreturn htab hbackspace hfeed hcontrol
  · subst hquote
    exact readPieces_short rfl cs
  · subst hback
    exact readPieces_short rfl cs
  · subst hnewline
    exact readPieces_short rfl cs
  · subst hreturn
    exact readPieces_short rfl cs
  · subst htab
    exact readPieces_short rfl cs
  · have hc : shortEscape? 'b' = some c := by
      rw [← Char.ofNat_toNat c, hbackspace]
      rfl
    exact readPieces_short hc cs
  · have hc : shortEscape? 'f' = some c := by
      rw [← Char.ofNat_toNat c, hfeed]
      rfl
    exact readPieces_short hc cs
  · have hc : Piece.ofCode c.toNat = .char c := by
      rw [Piece.ofCode, if_neg (by omega), Char.ofNat_toNat]
    have hcode := readPieces_code (hex4?_control hcontrol) cs
    rw [hc] at hcode
    exact hcode
  · exact readPieces_plain hquote (by simp [hcontrol, hback]) cs

/-- Characters are read back one after another, up to the closing quote. -/
theorem readPieces_escaped (cs : List Char) :
    readPieces (cs.flatMap escapeChar ++ '"' :: x) = some (cs.map .char, x) := by
  induction cs with
  | nil => exact readPieces_quote x
  | cons c cs ih =>
    rw [List.flatMap_cons, List.append_assoc, readPieces_escapeChar, ih]
    rfl

/-- Pieces that are characters make these characters. -/
theorem joinPieces_chars (cs : List Char) : joinPieces (cs.map .char) = some cs := by
  induction cs with
  | nil => rfl
  | cons c cs ih =>
    rw [List.map_cons, joinPieces, ih]
    rfl

/-- A string is read back. -/
theorem readString_escaped (cs : List Char) :
    readString (cs.flatMap escapeChar ++ '"' :: x) = some (some cs, x) := by
  rw [readString, readPieces_escaped, Option.map_some]
  dsimp only
  rw [joinPieces_chars]

/-! ## Whole numbers -/

/-- A decimal digit is one in the sense of the library. -/
theorem isDigit_eq (c : Char) : isDigit c = c.isDigit := rfl

theorem isDigit_of_mem_toDigits {n : Nat} {c : Char} (h : c ∈ Nat.toDigits 10 n) :
    isDigit c = true := by
  rw [isDigit_eq]
  exact Nat.isDigit_of_mem_toDigits (by decide) (by decide) h

/-- The digits of a number name it. -/
theorem digitsValue_toDigits (n : Nat) : digitsValue (Nat.toDigits 10 n) = n := by
  have h := Nat.ofDigitChars_ten_toDigits (n := n)
  rw [Nat.ofDigitChars_eq_foldl] at h
  exact h

/-- Only the digits of zero begin with a zero. -/
theorem head_toDigits {n : Nat} (h : 0 < n) : ∃ c cs, Nat.toDigits 10 n = c :: cs ∧ c ≠ '0' := by
  -- The first digit of a number is that of its tenth, until there is only one.
  induction n using Nat.strongRecOn with
  | _ n ih =>
    by_cases hsmall : n < 10
    · refine ⟨n.digitChar, [], Nat.toDigits_of_lt_base hsmall, fun heq => ?_⟩
      have hnat := Nat.toNat_digitChar_of_lt_ten hsmall
      rw [heq] at hnat
      have hzero : '0'.toNat = 48 := rfl
      omega
    · obtain ⟨c, cs, hdigits, hc⟩ := ih (n / 10) (by omega) (by omega)
      refine ⟨c, cs ++ [(n % 10).digitChar], ?_, hc⟩
      rw [Nat.toDigits_of_base_le (by decide) (by omega), hdigits]
      rfl

/-- Digits are read up to their end. -/
theorem spanDigits_of_digits {ds : List Char} (h : ∀ c ∈ ds, isDigit c = true) :
    spanDigits ds = (ds, []) := by
  induction ds with
  | nil => rfl
  | cons c ds ih =>
    rw [spanDigits, if_pos (h c List.mem_cons_self), ih fun d hd => h d (List.mem_cons_of_mem c hd)]

/-- The number that is written with some digits. -/
def wholeNumeral (negative : Bool) (n : Nat) : Numeral := ⟨negative, Nat.toDigits 10 n, none, none⟩

/-- The digits of a number are read as that number. -/
theorem readMagnitude_toDigits (negative : Bool) (n : Nat) :
    readMagnitude negative (Nat.toDigits 10 n) = some (wholeNumeral negative n, []) := by
  have hwhole : readWhole? (Nat.toDigits 10 n) = some (Nat.toDigits 10 n, []) := by
    by_cases hzero : n = 0
    · rw [hzero]
      rfl
    · obtain ⟨c, cs, hdigits, hc⟩ := head_toDigits (Nat.pos_of_ne_zero hzero)
      have hspan := spanDigits_of_digits fun d hd => isDigit_of_mem_toDigits (n := n) hd
      rw [hdigits] at hspan ⊢
      rw [readWhole?_of_ne_zero hc, readDigits?_eq_some]
      exact ⟨hspan, List.cons_ne_nil c cs⟩
  rw [readMagnitude, hwhole]
  rfl

/-- The number that is written with a sign and digits is whole, and of 64 bits with or without a
sign. -/
theorem toJson?_wholeNumeral {n : Int} (hlow : -0x8000000000000000 ≤ n)
    (hhigh : n ≤ maxSignificand) :
    (wholeNumeral (n < 0) n.natAbs).toJson? = some (.int n) := by
  have hvalue : digitsValue (wholeNumeral (n < 0) n.natAbs).whole = n.natAbs :=
    digitsValue_toDigits n.natAbs
  rw [Numeral.toJson?, hvalue]
  by_cases hsign : n < 0
  · have hsize : 0 < n.natAbs ∧ n.natAbs ≤ 0x8000000000000000 := by omega
    have hneg : -(n.natAbs : Int) = n := by omega
    have hint : some (Json.int (-(n.natAbs : Int))) = some (.int n) := by rw [hneg]
    simpa [wholeNumeral, hsign, hsize] using hint
  · have hsize : n.natAbs ≤ maxSignificand := by omega
    have hpos : (n.natAbs : Int) = n := by omega
    have hint : some (Json.int (n.natAbs : Int)) = some (.int n) := by rw [hpos]
    simpa [wholeNumeral, hsign, hsize] using hint

/-! ## Values -/

/-- A text is read as `b`, whatever follows it. All that is left of it are blanks, and fuel of twice
its length is enough. -/
def ReadsPiece {β : Type} (read : Nat → List Char → Option (β × List Char)) (piece : List Char)
    (b : β) : Prop :=
  ∃ r, skipBlank r = [] ∧ ∀ {fuel : Nat} {x : List Char}, 2 * piece.length + 2 ≤ fuel →
    Stops x → read fuel (piece ++ x) = some (b, r ++ x)

/-- The text of a value is read as a tree, whatever follows it. -/
def Reads (v : Json) (t : Tree) : Prop := ReadsPiece readTree (chars v) t

/-- A value whose text alone can be read is read whatever follows it. -/
theorem reads_of_ofText? {v : Json} {t : Tree} (h : Tree.ofText? v.compact = some t) :
    Reads v t := by
  unfold Tree.ofText? at h
  rw [compact, String.toList_ofList] at h
  dsimp only at h
  split at h
  · rename_i t' r hread
    split at h
    · rename_i hblank
      obtain rfl := Option.some.inj h
      exact ⟨r, hblank, fun hfuel hx => readTree_append hread hfuel hx⟩
    · simp at h
  · simp at h

/-- The text of such a value alone can be read. -/
theorem Reads.ofText? {v : Json} {t : Tree} (h : Reads v t) : Tree.ofText? v.compact = some t := by
  obtain ⟨r, hblank, hread⟩ := h
  -- The reader of a whole text has just that much fuel.
  have halone := @hread (2 * (chars v).length + 2) [] (Nat.le_refl _) trivial
  rw [List.append_nil, List.append_nil] at halone
  rw [Tree.ofText?, compact, String.toList_ofList, halone]
  exact if_pos hblank

/-- A string is read back. -/
theorem reads_str (s : String) : Reads (.str s) (.text (some s)) := by
  refine ⟨[], rfl, fun {fuel x} hfuel hx => ?_⟩
  obtain ⟨fuel, rfl⟩ : ∃ n, fuel = n + 1 := ⟨fuel - 1, by omega⟩
  have hquote : skipBlank (chars (.str s) ++ x) =
      '"' :: (s.toList.flatMap escapeChar ++ '"' :: x) := by
    rw [chars, quoted, List.cons_append, List.append_assoc, skipBlank_of_not_blank (by decide)]
    rfl
  rw [readTree_succ, hquote, readValue_quote, readString_escaped]
  simp

/-- The value `null` is read back. -/
theorem reads_null : Reads .null .null := by
  refine ⟨[], rfl, fun {fuel x} hfuel hx => ?_⟩
  obtain ⟨fuel, rfl⟩ : ∃ n, fuel = n + 1 := ⟨fuel - 1, by omega⟩
  rfl

/-- A truth value is read back. -/
theorem reads_bool (b : Bool) : Reads (.bool b) (.bool b) := by
  refine ⟨[], rfl, fun {fuel x} hfuel hx => ?_⟩
  obtain ⟨fuel, rfl⟩ : ∃ n, fuel = n + 1 := ⟨fuel - 1, by omega⟩
  cases b <;> rfl

/-- A whole number is written with its sign, if it is below zero, and its digits. -/
theorem chars_int (n : Int) :
    chars (.int n) =
      if n < 0 then '-' :: Nat.toDigits 10 n.natAbs else Nat.toDigits 10 n.natAbs := by
  cases n with
  | ofNat m => exact Nat.toList_repr
  | negSucc m =>
    rw [if_pos (Int.negSucc_lt_zero m)]
    change ("-" ++ (m + 1).repr).toList = _
    rw [String.toList_append, Nat.toList_repr]
    rfl

/-- A whole number is read back. -/
theorem reads_int (n : Int) : Reads (.int n) (.number (wholeNumeral (n < 0) n.natAbs)) := by
  refine ⟨[], rfl, fun {fuel x} hfuel hx => ?_⟩
  obtain ⟨fuel, rfl⟩ : ∃ n, fuel = n + 1 := ⟨fuel - 1, by omega⟩
  have hmagnitude : ∀ negative,
      readMagnitude negative (Nat.toDigits 10 n.natAbs ++ x) =
        some (wholeNumeral negative n.natAbs, x) :=
    fun negative => (extends_readMagnitude negative).append (readMagnitude_toDigits negative _) hx
  rw [chars_int]
  split_ifs with hsign
  · have hminus : skipBlank ('-' :: Nat.toDigits 10 n.natAbs ++ x) =
        '-' :: (Nat.toDigits 10 n.natAbs ++ x) := skipBlank_of_not_blank (by decide)
    rw [readTree_succ, hminus, readValue_minus, hmagnitude]
    simp [hsign]
  · obtain ⟨c, cs, hdigits, hc⟩ := head_of_readMagnitude (hmagnitude false)
    have hdigit : skipBlank (Nat.toDigits 10 n.natAbs ++ x) = c :: cs := by
      rw [hdigits]
      apply skipBlank_of_not_blank
      rintro (rfl | rfl | rfl | rfl) <;> simp [isDigit] at hc
    rw [readTree_succ, hdigit, readValue_digit hc, ← hdigits, hmagnitude]
    simp [hsign]

/-! ## Lists and objects -/

/-- Pieces with commas between them are read back, up to the closing character. -/
theorem readAll_joined {α β : Type} {close : Char} {piece : α → List Char}
    {joined : List α → List Char} {read : Nat → List Char → Option (β × List Char)}
    {readAll : Nat → List Char → Option (List β × List Char)}
    (hclose : close = ']' ∨ close = '\x7d')
    (hjoined : ∀ a as, joined (a :: as) =
      piece a ++ if as.isEmpty then [close] else ',' :: joined as)
    (hall : ∀ fuel cs, readAll (fuel + 1) cs = (read fuel cs).bind fun found =>
      readMore close (readAll fuel) found.1 found.2) {as : List α} {bs : List β}
    (h : List.Forall₂ (fun a b => ReadsPiece read (piece a) b) as bs) (hne : as ≠ []) {fuel : Nat}
    (hfuel : 2 * (joined as).length + 1 ≤ fuel) (x : List Char) :
    readAll fuel (joined as ++ x) = some (bs, x) := by
  induction h generalizing fuel with
  | nil => exact absurd rfl hne
  | @cons a b as bs hpiece hrest ih =>
    obtain ⟨r, hblank, hread⟩ := hpiece
    rw [hjoined] at hfuel ⊢
    obtain ⟨fuel, rfl⟩ : ∃ n, fuel = n + 1 := ⟨fuel - 1, by omega⟩
    rw [List.append_assoc, hall]
    cases hrest with
    | nil =>
      have hstops : Stops (close :: x) := by rcases hclose with rfl | rfl <;> simp [Stops, isDigit]
      have hend : skipBlank (r ++ close :: x) = close :: x := by
        rw [skipBlank_blanks_append hblank, skipBlank_of_not_blank]
        rcases hclose with rfl | rfl <;> decide
      have hlast : readMore close (readAll fuel) b (r ++ close :: x) = some ([b], x) :=
        readMore_close b hend (by rcases hclose with rfl | rfl <;> decide)
      have hvalue : 2 * (piece a).length + 2 ≤ fuel := by
        simp only [List.isEmpty_nil, if_true, List.length_append, List.length_singleton] at hfuel
        omega
      exact Option.bind_eq_some_iff.mpr ⟨_, hread hvalue hstops, hlast⟩
    | @cons a' b' as' bs' hpiece' hrest' =>
      simp only [List.isEmpty_cons, Bool.false_eq_true, if_false, List.length_append,
        List.length_cons] at hfuel
      have hstops : Stops (',' :: (joined (a' :: as') ++ x)) := by simp [Stops, isDigit]
      have hcomma : skipBlank (r ++ ',' :: (joined (a' :: as') ++ x)) =
          ',' :: (joined (a' :: as') ++ x) := by
        rw [skipBlank_blanks_append hblank, skipBlank_of_not_blank (by decide)]
      have hothers : readAll fuel (joined (a' :: as') ++ x) = some (b' :: bs', x) :=
        ih (List.cons_ne_nil a' as') (by omega)
      have hmore : readMore close (readAll fuel) b (r ++ ',' :: (joined (a' :: as') ++ x)) =
          some (b :: b' :: bs', x) := by
        rw [readMore_comma b hcomma, hothers]
        rfl
      exact Option.bind_eq_some_iff.mpr ⟨_, hread (by omega) hstops, hmore⟩

/-- Items are written one after another. -/
theorem itemChars_cons (v : Json) (items : List Json) :
    itemChars (v :: items) =
      chars v ++ if items.isEmpty then [']'] else ',' :: itemChars items := by
  cases items <;> rfl

/-- Items whose texts are read as these trees. -/
abbrev ReadsItems (items : List Json) (trees : List Tree) : Prop := List.Forall₂ Reads items trees

/-- Items are read back, up to the closing bracket. -/
theorem readItems_itemChars {items : List Json} {trees : List Tree} (h : ReadsItems items trees)
    (hne : items ≠ []) {fuel : Nat} (hfuel : 2 * (itemChars items).length + 1 ≤ fuel)
    (x : List Char) : readItems fuel (itemChars items ++ x) = some (trees, x) :=
  readAll_joined (.inl rfl) itemChars_cons (fun _ _ => rfl) h hne hfuel x

/-- The text of a field. -/
def fieldText (field : String × Json) : List Char := quoted field.1 ++ ':' :: chars field.2

/-- Fields are written one after another, with their keys as strings. -/
theorem fieldChars_cons (field : String × Json) (fields : List (String × Json)) :
    fieldChars (field :: fields) =
      fieldText field ++ if fields.isEmpty then ['\x7d'] else ',' :: fieldChars fields := by
  rw [fieldText, List.append_assoc]
  cases fields <;> rfl

/-- A field is read back, with what follows its value. -/
theorem readField_fieldText (k : String) {v : Json} {t : Tree} (h : Reads v t) :
    ReadsPiece (fun fuel => readField (readTree fuel)) (fieldText (k, v)) (k, t) := by
  obtain ⟨r, hblank, hread⟩ := h
  refine ⟨r, hblank, fun {fuel x} hfuel hx => readField_eq_some.mpr
    ⟨k.toList.flatMap escapeChar ++ '"' :: ':' :: (chars v ++ x), k.toList,
      ':' :: (chars v ++ x), chars v ++ x, t, ?_, ?_, ?_, hread ?_ hx, ?_⟩⟩
  · rw [fieldText, quoted, List.cons_append, List.cons_append,
      skipBlank_of_not_blank (by decide)]
    simp
  · exact readString_escaped k.toList
  · exact skipBlank_of_not_blank (by decide)
  · rw [fieldText, List.length_append, List.length_cons] at hfuel
    dsimp only at hfuel
    omega
  · rw [String.ofList_toList]

/-- Fields whose values are read as these trees. -/
abbrev ReadsFields (fields : List (String × Json)) (trees : List (String × Tree)) : Prop :=
  List.Forall₂ (fun field tree => field.1 = tree.1 ∧ Reads field.2 tree.2) fields trees

/-- Fields are read back, up to the closing brace. -/
theorem readFields_fieldChars {fields : List (String × Json)} {trees : List (String × Tree)}
    (h : ReadsFields fields trees) (hne : fields ≠ []) {fuel : Nat}
    (hfuel : 2 * (fieldChars fields).length + 1 ≤ fuel) (x : List Char) :
    readFields fuel (fieldChars fields ++ x) = some (trees, x) := by
  refine readAll_joined (.inr rfl) fieldChars_cons (fun _ _ => rfl) (h.imp ?_) hne hfuel x
  rintro ⟨k, v⟩ ⟨k', t⟩ ⟨rfl, hvalue⟩
  exact readField_fieldText k hvalue

/-- Blanks are skipped at once. -/
theorem skipBlank_skipBlank (cs : List Char) : skipBlank (skipBlank cs) = skipBlank cs := by
  induction cs with
  | nil => rfl
  | cons c cs ih =>
    by_cases hc : c = ' ' ∨ c = '\n' ∨ c = '\t' ∨ c = '\r'
    · rw [skipBlank, if_pos hc, ih]
    · rw [skipBlank_of_not_blank hc, skipBlank_of_not_blank hc]

/-- No value is read where there is none, nor where a list ends. -/
theorem readTree_eq_none {fuel : Nat} {cs : List Char}
    (h : skipBlank cs = [] ∨ ∃ r, skipBlank cs = ']' :: r) : readTree fuel cs = none := by
  cases fuel with
  | zero => rfl
  | succ fuel =>
    rw [readTree_succ]
    rcases h with hend | ⟨r, hend⟩
    · rw [hend]
      rfl
    · rw [hend]
      rfl

/-- Items that are read are what a list encloses, as they do not begin with its closing bracket. -/
theorem readEnclosed_readItems {fuel : Nat} {cs r : List Char} {trees : List Tree}
    (h : readItems fuel cs = some (trees, r)) :
    readEnclosed ']' (readItems fuel) cs = some (trees, r) := by
  obtain ⟨fuel, rfl⟩ : ∃ n, fuel = n + 1 := by
    cases fuel with
    | zero => simp [readItems] at h
    | succ fuel => exact ⟨fuel, rfl⟩
  obtain ⟨first, hvalue, -⟩ := Option.bind_eq_some_iff.mp h
  -- The first value is read after the blanks.
  have hskip : readItems (fuel + 1) (skipBlank cs) = readItems (fuel + 1) cs := by
    cases fuel with
    | zero => rfl
    | succ fuel => simp only [readItems, readTree, skipBlank_skipBlank]
  cases hfirst : skipBlank cs with
  | nil => simp [readTree_eq_none (.inl hfirst)] at hvalue
  | cons c cs' =>
    have hc : c ≠ ']' := by
      rintro rfl
      simp [readTree_eq_none (.inr ⟨cs', hfirst⟩)] at hvalue
    rw [readEnclosed_open hfirst hc, ← hfirst, hskip, h]

/-- A list is read back as a list of what its items give. -/
theorem reads_arr {items : List Json} {trees : List Tree} (h : ReadsItems items trees) :
    Reads (.arr items) (.list trees) := by
  refine ⟨[], rfl, fun {fuel x} hfuel hx => ?_⟩
  obtain ⟨fuel, rfl⟩ : ∃ n, fuel = n + 1 := ⟨fuel - 1, by omega⟩
  rw [chars, List.length_cons] at hfuel
  have hbracket : skipBlank (chars (.arr items) ++ x) = '[' :: (itemChars items ++ x) :=
    skipBlank_of_not_blank (by decide)
  rw [readTree_succ, hbracket, readValue_bracket]
  cases h with
  | nil =>
    have hclose : skipBlank (itemChars [] ++ x) = ']' :: x := skipBlank_of_not_blank (by decide)
    rw [readEnclosed_close hclose]
    rfl
  | @cons v t items trees hv hrest =>
    have hread : readItems fuel (itemChars (v :: items) ++ x) = some (t :: trees, x) :=
      readItems_itemChars (.cons hv hrest) (List.cons_ne_nil _ _) (by omega) x
    rw [readEnclosed_readItems hread]
    rfl

/-- An object is read back as a record of what its fields give. -/
theorem reads_obj {fields : List (String × Json)} {trees : List (String × Tree)}
    (h : ReadsFields fields trees) : Reads (.obj fields) (.record trees) := by
  refine ⟨[], rfl, fun {fuel x} hfuel hx => ?_⟩
  obtain ⟨fuel, rfl⟩ : ∃ n, fuel = n + 1 := ⟨fuel - 1, by omega⟩
  rw [chars, List.length_cons] at hfuel
  have hbrace : skipBlank (chars (.obj fields) ++ x) = '\x7b' :: (fieldChars fields ++ x) :=
    skipBlank_of_not_blank (by decide)
  rw [readTree_succ, hbrace, readValue_brace]
  cases h with
  | nil =>
    have hclose : skipBlank (fieldChars [] ++ x) = '\x7d' :: x :=
      skipBlank_of_not_blank (by decide)
    rw [readEnclosed_close hclose]
    rfl
  | @cons field tree fields trees hfield hrest =>
    obtain ⟨k, v⟩ := field
    obtain ⟨rest, hfields⟩ : ∃ rest, fieldChars ((k, v) :: fields) ++ x = '"' :: rest := by
      rw [fieldChars_cons, fieldText, quoted, List.cons_append, List.cons_append, List.cons_append]
      exact ⟨_, rfl⟩
    have hread : readFields fuel (fieldChars ((k, v) :: fields) ++ x) = some (tree :: trees, x) :=
      readFields_fieldChars (.cons hfield hrest) (List.cons_ne_nil _ _) (by omega) x
    have hopen : skipBlank ('"' :: rest) = '"' :: rest := skipBlank_of_not_blank (by decide)
    rw [hfields] at hread ⊢
    rw [readEnclosed_open hopen (by decide), hread]
    rfl

end Json

end WorkloadReplay
