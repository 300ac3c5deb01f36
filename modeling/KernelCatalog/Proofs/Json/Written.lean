import KernelCatalog.Json.Parser
import KernelCatalog.Json.Printer
import KernelCatalog.Proofs.Text.Decimal
import KernelCatalog.Proofs.Text.Literal
import Mathlib.Data.List.Basic
import Mathlib.Data.List.TakeDrop
import Mathlib.Data.List.TakeWhile

/-!
# Reading back written JSON

`Written` lists the ways to write a value, with blanks where a layout may put them. Whatever is
written so is read as that value and nothing more, so each layout only has to be one of these ways.
Numbers with a fraction or an exponent and texts that are not legible are left out.

* `readString?_stringChars`: a text is read back, whatever characters it holds.
* `readNumber?_numberChars`: a number is read back up to where it ends.
* `Written.read`: a written value is read back.
* `parse?_pretty`, `parse?_compact`: a value is read back from both layouts.
-/

namespace KernelCatalog.Json

/-! ## Texts -/

theorem readFour?_fourDigits {n : Nat} (h : n < 65536) (rest : List Char) :
    readFour? (fourDigits n ++ rest) = some (n, rest) := by
  have hdigit : ∀ m, Text.hexDigit? (m % 16).digitChar = some (m % 16) := fun m =>
    Text.hexDigit?_digitChar (Nat.mod_lt _ (by decide))
  simp only [fourDigits, List.cons_append, List.nil_append, readFour?, hdigit]
  congr 2
  omega

/-- A character that is escaped by a letter is read back. -/
theorem readString?_letter {c letter : Char} (h : letterEscape? letter = some c)
    (hu : letter ≠ 'u') (fuel : Nat) (rest : List Char) :
    readString? (fuel + 1) ('\\' :: letter :: rest) =
      (readString? fuel rest).map fun (cs, left) => (cs.map (c :: ·), left) := by
  rw [readString?, if_neg (by decide), if_pos rfl]
  simp only [if_neg hu, h, Option.map_some]

/-- A written character is read back. -/
theorem readString?_escape (c : Char) (fuel : Nat) (rest : List Char) :
    readString? (fuel + 1) (escape c ++ rest) =
      (readString? fuel rest).map fun (cs, left) => (cs.map (c :: ·), left) := by
  unfold escape
  split_ifs with hquote hbackslash hback hfeed hnewline hreturn htab hcontrol
  · exact readString?_letter (by rw [hquote]; rfl) (by decide) fuel rest
  · exact readString?_letter (by rw [hbackslash]; rfl) (by decide) fuel rest
  · exact readString?_letter (by rw [hback]; rfl) (by decide) fuel rest
  · exact readString?_letter (by rw [hfeed]; rfl) (by decide) fuel rest
  · exact readString?_letter (by rw [hnewline]; rfl) (by decide) fuel rest
  · exact readString?_letter (by rw [hreturn]; rfl) (by decide) fuel rest
  · exact readString?_letter (by rw [htab]; rfl) (by decide) fuel rest
  · have hread : readEscape? (fourDigits c.toNat ++ rest) = some (some c, rest) := by
      rw [readEscape?, readFour?_fourDigits (by omega)]
      have hplain : (decide (c.toNat < 0xd800) || decide (0xdfff < c.toNat)) = true := by
        simp only [Bool.or_eq_true, decide_eq_true_eq]
        omega
      simp only [hplain, if_true, Char.ofNat_toNat]
    rw [List.cons_append, List.cons_append, readString?, if_neg (by decide), if_pos rfl]
    simp only [if_true, hread]
  · rw [List.singleton_append, readString?.eq_def]
    simp only [if_neg hquote, if_neg hbackslash, if_neg hcontrol]

/-- Characters are read back up to the closing quote. -/
theorem readString?_flatMap_escape {cs : List Char} {fuel : Nat} (h : cs.length < fuel)
    (rest : List Char) :
    readString? fuel (cs.flatMap escape ++ '"' :: rest) = some (some cs, rest) := by
  induction cs generalizing fuel with
  | nil =>
    obtain ⟨fuel, rfl⟩ := Nat.exists_eq_succ_of_ne_zero (Nat.ne_of_gt h)
    rfl
  | cons c cs ih =>
    obtain ⟨fuel, rfl⟩ := Nat.exists_eq_succ_of_ne_zero (Nat.ne_of_gt (Nat.zero_lt_of_lt h))
    rw [List.flatMap_cons, List.append_assoc, readString?_escape,
      ih (Nat.lt_of_succ_lt_succ h)]
    rfl

theorem length_le_length_flatMap_escape (cs : List Char) :
    cs.length ≤ (cs.flatMap escape).length := by
  have hone : ∀ c, 1 ≤ (escape c).length := by
    intro c
    unfold escape
    split_ifs <;> simp
  induction cs with
  | nil => exact Nat.le_refl 0
  | cons c cs ih =>
    rw [List.flatMap_cons, List.length_append, List.length_cons]
    have := hone c
    omega

/-- **A text is read back** behind its first quote, and ends at its last. -/
theorem readString?_stringChars (text : String) (rest : List Char) :
    ∃ body, stringChars text ++ rest = '"' :: body ∧
      readString? (body.length + 1) body = some (some text.toList, rest) := by
  refine ⟨text.toList.flatMap escape ++ '"' :: rest, ?_, readString?_flatMap_escape ?_ rest⟩
  · rw [stringChars, List.cons_append, List.append_assoc, List.singleton_append]
  · have hle := length_le_length_flatMap_escape text.toList
    rw [List.length_append]
    omega

/-! ## Numbers -/

/-- A number ends where these characters begin. -/
def Stops (rest : List Char) : Prop :=
  ∀ c ∈ rest.head?, c.isDigit = false ∧ c ≠ '.' ∧ c ≠ 'e' ∧ c ≠ 'E'

theorem spanDigits_append {digits rest : List Char} (hdigits : ∀ c ∈ digits, c.isDigit = true)
    (hrest : Stops rest) : spanDigits (digits ++ rest) = (digits, rest) := by
  have hnone : rest.takeWhile Char.isDigit = [] ∧ rest.dropWhile Char.isDigit = rest := by
    cases rest with
    | nil => exact ⟨rfl, rfl⟩
    | cons c more =>
      have hc := (hrest c rfl).1
      exact ⟨by simp [hc], by simp [hc]⟩
  rw [spanDigits, List.span_eq_takeWhile_dropWhile, List.takeWhile_append_of_pos hdigits,
    List.dropWhile_append_of_pos hdigits, hnone.1, hnone.2, List.append_nil]

theorem head?_toDigits_ne_zero {n : Nat} (h : 0 < n) : (Nat.toDigits 10 n).head? ≠ some '0' := by
  induction n using Nat.strongRecOn with
  | ind n ih =>
    rcases Nat.lt_or_ge n 10 with hn | hn
    · rw [Nat.toDigits_of_lt_base hn]
      interval_cases n <;> decide
    · rw [Nat.toDigits_of_base_le (by decide) hn, List.head?_append_of_ne_nil _ Nat.toDigits_ne_nil]
      exact ih (n / 10) (by omega) (by omega)

theorem readWhole?_toDigits (n : Nat) {rest : List Char} (hrest : Stops rest) :
    readWhole? (Nat.toDigits 10 n ++ rest) = some (n, Nat.toDigits 10 n, rest) := by
  have hdigits : ∀ c ∈ Nat.toDigits 10 n, c.isDigit = true := fun c hc =>
    Nat.isDigit_of_mem_toDigits (by decide) (by decide) hc
  have hvalue : Text.digits? 0 (Nat.toDigits 10 n) = some n := by
    simpa [Text.digits?] using Text.digits?_toDigits n []
  rw [readWhole?, spanDigits_append hdigits hrest]
  split
  · next heq => exact absurd (Prod.mk.inj heq).1 Nat.toDigits_ne_nil
  · next heq =>
    -- a zero in front of another digit would be that of zero, which has one digit
    have hn : n = 0 := by
      refine Nat.eq_zero_of_not_pos fun hpos => head?_toDigits_ne_zero hpos ?_
      rw [(Prod.mk.inj heq).1, List.head?_cons]
    have hzero : Nat.toDigits 10 0 = ['0'] := rfl
    rw [hn, hzero] at heq
    exact absurd (Prod.mk.inj heq).1 (by simp)
  · next digits left _ _ heq =>
    obtain ⟨rfl, rfl⟩ := Prod.mk.inj heq
    rw [hvalue, Option.map_some]

end KernelCatalog.Json

namespace KernelCatalog

/-- A number that is written in digits, with a sign only if it is negative. -/
def JsonNumber.isPlain : JsonNumber → Bool
  | .whole _ => true
  | .negative n => n != 0
  | .other _ => false

namespace Json

/-- **A plain number is read back** up to where it ends. -/
theorem readNumber?_numberChars {n : JsonNumber} (h : n.isPlain = true) {rest : List Char}
    (hrest : Stops rest) : readNumber? (numberChars n ++ rest) = some (n, rest) := by
  have hfraction : readFraction? rest = some ([], rest) := by
    cases rest with
    | nil => rfl
    | cons c more =>
      unfold readFraction?
      split
      · next heq => exact absurd (List.cons.inj heq).1 (hrest c rfl).2.1
      · rfl
  have hexponent : readExponent? rest = some ([], rest) := by
    cases rest with
    | nil => rfl
    | cons c more =>
      obtain ⟨-, -, hlower, hupper⟩ := hrest c rfl
      simp [readExponent?, hlower, hupper]
  cases n with
  | whole n =>
    unfold readNumber?
    split
    · next negative body heq =>
      split at heq
      · next more hminus =>
        -- digits do not begin with a sign
        have hmem : '-' ∈ Nat.toDigits 10 n := by
          have hhead := congrArg List.head? hminus
          rw [numberChars, List.head?_append_of_ne_nil _ Nat.toDigits_ne_nil] at hhead
          exact List.mem_of_head? hhead
        exact absurd (Nat.isDigit_of_mem_toDigits (by decide) (by decide) hmem) (by decide)
      · obtain ⟨rfl, rfl⟩ := Prod.mk.inj heq
        rw [numberChars, readWhole?_toDigits n hrest]
        simp [hfraction, hexponent]
  | negative n =>
    have hn : (n == 0) = false := by simpa [JsonNumber.isPlain] using h
    rw [numberChars, List.cons_append, readNumber?]
    simp [readWhole?_toDigits n hrest, hfraction, hexponent, hn]
  | other literal => exact absurd h (by simp [JsonNumber.isPlain])

/-! ## Values -/

/-- What a JSON text is put together from. -/
inductive Phrase where
  | value (v : Json)
  /-- The items behind the first one, up to the closing bracket. -/
  | items (items : List Json)
  /-- The members behind the first one, up to the closing brace. -/
  | members (members : List (String × Json))

/-- Only blanks. -/
def AreBlanks (blanks : List Char) : Prop := skipBlanks blanks = []

/-- The ways to write a value. -/
inductive Written : Phrase → List Char → Prop where
  | null : Written (.value .null) ['n', 'u', 'l', 'l']
  | yes : Written (.value (.bool true)) ['t', 'r', 'u', 'e']
  | no : Written (.value (.bool false)) ['f', 'a', 'l', 's', 'e']
  | num {n : JsonNumber} (h : n.isPlain = true) : Written (.value (.num n)) (numberChars n)
  | str (text : String) : Written (.value (.str text)) (stringChars text)
  | noItem : Written (.value (.arr [])) ['[', ']']
  | arr {item : Json} {rest : List Json} {blanks first others : List Char}
      (hblanks : AreBlanks blanks) (hfirst : Written (.value item) first)
      (hothers : Written (.items rest) others) :
      Written (.value (.arr (item :: rest))) ('[' :: (blanks ++ (first ++ others)))
  | noMember : Written (.value (.obj [])) ['\x7b', '\x7d']
  | obj {name : String} {value : Json} {rest : List (String × Json)}
      {blanks space first others : List Char} (hblanks : AreBlanks blanks)
      (hspace : AreBlanks space) (hfirst : Written (.value value) first)
      (hothers : Written (.members rest) others) :
      Written (.value (.obj ((name, value) :: rest)))
        ('\x7b' :: (blanks ++ (stringChars name ++ ':' :: (space ++ (first ++ others)))))
  | endItems {blanks : List Char} (hblanks : AreBlanks blanks) :
      Written (.items []) (blanks ++ [']'])
  | item {item : Json} {rest : List Json} {blanks first others : List Char}
      (hblanks : AreBlanks blanks) (hfirst : Written (.value item) first)
      (hothers : Written (.items rest) others) :
      Written (.items (item :: rest)) (',' :: (blanks ++ (first ++ others)))
  | endMembers {blanks : List Char} (hblanks : AreBlanks blanks) :
      Written (.members []) (blanks ++ ['\x7d'])
  | member {name : String} {value : Json} {rest : List (String × Json)}
      {blanks space first others : List Char} (hblanks : AreBlanks blanks)
      (hspace : AreBlanks space) (hfirst : Written (.value value) first)
      (hothers : Written (.members rest) others) :
      Written (.members ((name, value) :: rest))
        (',' :: (blanks ++ (stringChars name ++ ':' :: (space ++ (first ++ others)))))

theorem AreBlanks.skip {blanks : List Char} (h : AreBlanks blanks) (rest : List Char) :
    skipBlanks (blanks ++ rest) = skipBlanks rest := by
  have hempty : skipBlanks blanks = [] := h
  unfold skipBlanks at hempty ⊢
  rw [List.dropWhile_append, hempty]
  rfl

/-- A character that no layout puts between others. -/
def isSolid (c : Char) : Bool := !(c = ' ' || c = '\t' || c = '\n' || c = '\r')

theorem skipBlanks_cons {c : Char} (h : isSolid c = true) (rest : List Char) :
    skipBlanks (c :: rest) = c :: rest :=
  List.dropWhile_cons_of_neg (by simpa [isSolid] using h)

/-- A number begins with a solid character that opens no other value. -/
theorem exists_numberChars_eq {n : JsonNumber} (h : n.isPlain = true) :
    ∃ c more, numberChars n = c :: more ∧ isSolid c = true ∧
      ∀ other ∈ [']', '"', '[', '\x7b', 'n', 't', 'f'], c ≠ other := by
  cases n with
  | whole n =>
    cases hdigits : Nat.toDigits 10 n with
    | nil => exact absurd hdigits Nat.toDigits_ne_nil
    | cons c more =>
      refine ⟨c, more, hdigits, ?_⟩
      have hdigit : c.isDigit = true :=
        Nat.isDigit_of_mem_toDigits (by decide) (by decide) (hdigits ▸ List.mem_cons_self)
      have hne : ∀ other, other.isDigit = false → c ≠ other := by
        rintro other hother rfl
        exact absurd (hdigit.symm.trans hother) (by decide)
      refine ⟨?_, fun other hother => hne other ?_⟩
      · simp [isSolid, hne ' ' rfl, hne '\t' rfl, hne '\n' rfl, hne '\r' rfl]
      · revert hother
        revert other
        simp
  | negative n => exact ⟨'-', Nat.toDigits 10 n, rfl, by decide, by simp⟩
  | other literal => exact absurd h (by simp [JsonNumber.isPlain])

/-- A value begins with a solid character that closes no array. -/
theorem Written.opens {v : Json} {cs : List Char} (h : Written (.value v) cs) :
    ∃ c more, cs = c :: more ∧ isSolid c = true ∧ c ≠ ']' := by
  cases h with
  | num hplain =>
    obtain ⟨c, more, hcs, hsolid, hne⟩ := exists_numberChars_eq hplain
    exact ⟨c, more, hcs, hsolid, hne ']' (by simp)⟩
  | _ => exact ⟨_, _, rfl, by decide, by decide⟩

theorem Written.skip {v : Json} {cs : List Char} (h : Written (.value v) cs) (rest : List Char) :
    skipBlanks (cs ++ rest) = cs ++ rest := by
  obtain ⟨c, more, rfl, hsolid, -⟩ := h.opens
  exact skipBlanks_cons hsolid _

/-- A number ends in front of blanks and in front of what closes an array or an object. -/
theorem stops_append_cons {blanks : List Char} (hblanks : AreBlanks blanks) {c : Char}
    (hc : c ∈ [',', ']', '\x7d']) (rest : List Char) : Stops (blanks ++ c :: rest) := by
  have hall : ∀ c ∈ [',', ']', '\x7d', ' ', '\t', '\n', '\r'],
      c.isDigit = false ∧ c ≠ '.' ∧ c ≠ 'e' ∧ c ≠ 'E' := by simp
  intro first hfirst
  cases blanks with
  | nil =>
    obtain rfl := Option.some.inj hfirst
    exact hall c (List.mem_append_left [' ', '\t', '\n', '\r'] hc)
  | cons blank more =>
    obtain rfl := Option.some.inj hfirst
    have hnot : ¬ isSolid blank = true := by
      intro hsolid
      have hempty : skipBlanks (blank :: more) = [] := hblanks
      rw [skipBlanks_cons hsolid] at hempty
      exact absurd hempty (by simp)
    exact hall blank (by grind [isSolid])

/-- A number ends in front of the other items or members. -/
theorem Written.stops {phrase : Phrase} {cs : List Char} (h : Written phrase cs)
    (hphrase : ∀ v, phrase ≠ .value v) (rest : List Char) : Stops (cs ++ rest) := by
  have hnil : AreBlanks [] := rfl
  cases h with
  | endItems hblanks =>
    rw [List.append_assoc, List.singleton_append]
    exact stops_append_cons hblanks (by simp) rest
  | endMembers hblanks =>
    rw [List.append_assoc, List.singleton_append]
    exact stops_append_cons hblanks (by simp) rest
  | item _ _ _ => exact stops_append_cons hnil (by simp) _
  | member _ _ _ _ => exact stops_append_cons hnil (by simp) _
  | _ => exact absurd rfl (hphrase _)

theorem mapM_map_eq_some {α β : Type} {read : β → Option α} {write : α → β} {items : List α}
    (h : ∀ item ∈ items, read (write item) = some item) :
    (items.map write).mapM read = some items := by
  induction items with
  | nil => rfl
  | cons item rest ih =>
    obtain ⟨hitem, hrest⟩ := List.forall_mem_cons.mp h
    rw [List.map_cons, List.mapM_cons, hitem, ih hrest]
    rfl

/-- Names that are all legible make an object. -/
theorem ofMembers_map (members : List (String × Json)) :
    ofMembers (members.map fun member => (some member.1.toList, member.2)) = .obj members := by
  rw [ofMembers, mapM_map_eq_some]
  intro member _
  simp only [Option.map_some, String.ofList_toList]

/-- A number is read back in front of what ends it. -/
theorem readValue?_numberChars {n : JsonNumber} (hplain : n.isPlain = true) {rest : List Char}
    (hstops : Stops rest) (fuel : Nat) :
    readValue? (fuel + 1) (numberChars n ++ rest) = some (.num n, rest) := by
  obtain ⟨c, more, hcs, -, hne⟩ := exists_numberChars_eq hplain
  have hnumber := readNumber?_numberChars hplain hstops
  rw [hcs, List.cons_append] at hnumber ⊢
  rw [readValue?.eq_def]
  simp only [hne, List.mem_cons, true_or, or_true, if_false, hnumber, Option.map_some]

theorem readValue?_stringChars (text : String) (rest : List Char) (fuel : Nat) :
    readValue? (fuel + 1) (stringChars text ++ rest) = some (.str text, rest) := by
  obtain ⟨body, hbody, hstring⟩ := readString?_stringChars text rest
  rw [hbody, readValue?.eq_def]
  simp only [if_true, hstring, Option.map_some, ofText, String.ofList_toList]

/-- Nothing is skipped in front of a string. -/
theorem skipBlanks_stringChars (text : String) (rest : List Char) :
    skipBlanks (stringChars text ++ rest) = stringChars text ++ rest :=
  (Written.str text).skip rest

section Parts

variable {item value : Json} {items : List Json} {name : String} {members : List (String × Json)}
  {blanks space first behind rest : List Char} {fuel : Nat}

/-- An array is read back if its first item is, and the others behind it. -/
theorem readValue?_array (hblanks : AreBlanks blanks) (hfirst : Written (.value item) first)
    (hitem : readValue? fuel (first ++ behind) = some (item, behind))
    (hitems : readItems? fuel (skipBlanks behind) = some (items, rest)) :
    readValue? (fuel + 1) ('[' :: (blanks ++ (first ++ behind))) =
      some (.arr (item :: items), rest) := by
  rw [readValue?.eq_def]
  simp only [Char.reduceEq, if_false, if_true, hblanks.skip, hfirst.skip]
  -- an item does not begin like the end of the array
  obtain ⟨c, more, rfl, -, hne⟩ := hfirst.opens
  split
  · next heq => exact absurd (List.cons.inj heq).1 hne
  · simp only [hitem, hitems, Option.map_some]

/-- Items are read back behind a comma if the first one is, and the others behind it. -/
theorem readItems?_item (hblanks : AreBlanks blanks) (hfirst : Written (.value item) first)
    (hitem : readValue? fuel (first ++ behind) = some (item, behind))
    (hitems : readItems? fuel (skipBlanks behind) = some (items, rest)) :
    readItems? (fuel + 1) (',' :: (blanks ++ (first ++ behind))) = some (item :: items, rest) := by
  rw [readItems?.eq_def]
  simp only [hblanks.skip, hfirst.skip, hitem, hitems, Option.map_some]

/-- A member is read back if its value is. -/
theorem readMember?_stringChars (name : String) (hspace : AreBlanks space)
    (hfirst : Written (.value value) first)
    (hvalue : readValue? fuel (first ++ behind) = some (value, behind)) :
    readMember? (fuel + 1) (stringChars name ++ ':' :: (space ++ (first ++ behind))) =
      some ((some name.toList, value), behind) := by
  obtain ⟨body, hbody, hstring⟩ :=
    readString?_stringChars name (':' :: (space ++ (first ++ behind)))
  rw [hbody, readMember?]
  simp only [hstring]
  rw [skipBlanks_cons (by decide)]
  simp only [hspace.skip, hfirst.skip, hvalue, Option.map_some]

/-- An object is read back if the value of its first member is, and the others behind it. -/
theorem readValue?_object (hblanks : AreBlanks blanks) (hspace : AreBlanks space)
    (hfirst : Written (.value value) first)
    (hvalue : readValue? fuel (first ++ behind) = some (value, behind))
    (hmembers : readMembers? (fuel + 1) (skipBlanks behind) =
      some (members.map fun member => (some member.1.toList, member.2), rest)) :
    readValue? (fuel + 2)
        ('\x7b' :: (blanks ++ (stringChars name ++ ':' :: (space ++ (first ++ behind))))) =
      some (.obj ((name, value) :: members), rest) := by
  have hmember := readMember?_stringChars name hspace hfirst hvalue
  rw [readValue?.eq_def]
  simp only [Char.reduceEq, if_false, if_true, hblanks.skip, skipBlanks_stringChars]
  -- a name does not begin like the end of the object
  split
  · next heq => exact absurd (List.cons.inj heq).1 (by decide)
  · simp only [hmember, hmembers, Option.map_some]
    rw [← ofMembers_map ((name, value) :: members), List.map_cons]

/-- Members are read back behind a comma if the value of the first one is, and the others behind
it. -/
theorem readMembers?_member (hblanks : AreBlanks blanks) (hspace : AreBlanks space)
    (hfirst : Written (.value value) first)
    (hvalue : readValue? fuel (first ++ behind) = some (value, behind))
    (hmembers : readMembers? (fuel + 1) (skipBlanks behind) =
      some (members.map fun member => (some member.1.toList, member.2), rest)) :
    readMembers? (fuel + 2)
        (',' :: (blanks ++ (stringChars name ++ ':' :: (space ++ (first ++ behind))))) =
      some (((name, value) :: members).map fun member => (some member.1.toList, member.2),
        rest) := by
  have hmember := readMember?_stringChars name hspace hfirst hvalue
  rw [readMembers?.eq_def]
  simp only [hblanks.skip, skipBlanks_stringChars, hmember, hmembers, Option.map_some,
    List.map_cons]

end Parts

/-- What is read at the front of a text is the phrase, and the rest is left. -/
def Phrase.ReadFrom (fuel : Nat) (cs rest : List Char) : Phrase → Prop
  | .value v => Stops rest → readValue? fuel (cs ++ rest) = some (v, rest)
  | .items others => readItems? fuel (skipBlanks (cs ++ rest)) = some (others, rest)
  | .members others =>
    readMembers? fuel (skipBlanks (cs ++ rest)) =
      some (others.map fun member => (some member.1.toList, member.2), rest)

/-- **What is written is read back**, whatever follows it. -/
theorem Written.read {phrase : Phrase} {cs : List Char} (h : Written phrase cs) {fuel : Nat}
    (hfuel : cs.length ≤ fuel) (rest : List Char) : phrase.ReadFrom (fuel + 1) cs rest := by
  -- a phrase takes one step of the reader, a member two, which leaves enough for their parts
  induction h generalizing fuel rest with
  | null => exact fun _ => rfl
  | yes => exact fun _ => rfl
  | no => exact fun _ => rfl
  | num hplain => exact fun hstops => readValue?_numberChars hplain hstops fuel
  | str text => exact fun _ => readValue?_stringChars text rest fuel
  | noItem => exact fun _ => rfl
  | @arr item items blanks first others hblanks hfirst hothers ihfirst ihothers =>
    intro _
    simp only [List.length_cons, List.length_append] at hfuel
    obtain ⟨fuel, rfl⟩ : ∃ less, fuel = less + 1 := ⟨fuel - 1, by omega⟩
    have hfirstFuel : first.length ≤ fuel := by omega
    have hothersFuel : others.length ≤ fuel := by omega
    have hitem := ihfirst hfirstFuel _ (hothers.stops (by simp) rest)
    have hitems := ihothers hothersFuel rest
    rw [List.cons_append, List.append_assoc, List.append_assoc]
    exact readValue?_array hblanks hfirst hitem hitems
  | noMember => exact fun _ => rfl
  | @obj name value members blanks space first others hblanks hspace hfirst hothers ihfirst
      ihothers =>
    intro _
    simp only [List.length_cons, List.length_append] at hfuel
    obtain ⟨fuel, rfl⟩ : ∃ less, fuel = less + 2 := ⟨fuel - 2, by omega⟩
    have hfirstFuel : first.length ≤ fuel := by omega
    have hothersFuel : others.length ≤ fuel + 1 := by omega
    have hvalue := ihfirst hfirstFuel _ (hothers.stops (by simp) rest)
    have hmembers := ihothers hothersFuel rest
    simp only [List.cons_append, List.append_assoc]
    exact readValue?_object hblanks hspace hfirst hvalue hmembers
  | endItems hblanks =>
    rw [Phrase.ReadFrom, List.append_assoc, hblanks.skip]
    rfl
  | @item item items blanks first others hblanks hfirst hothers ihfirst ihothers =>
    simp only [List.length_cons, List.length_append] at hfuel
    obtain ⟨fuel, rfl⟩ : ∃ less, fuel = less + 1 := ⟨fuel - 1, by omega⟩
    have hfirstFuel : first.length ≤ fuel := by omega
    have hothersFuel : others.length ≤ fuel := by omega
    have hitem := ihfirst hfirstFuel _ (hothers.stops (by simp) rest)
    have hitems := ihothers hothersFuel rest
    rw [Phrase.ReadFrom, List.cons_append, List.append_assoc, List.append_assoc,
      skipBlanks_cons (by decide)]
    exact readItems?_item hblanks hfirst hitem hitems
  | endMembers hblanks =>
    rw [Phrase.ReadFrom, List.append_assoc, hblanks.skip]
    rfl
  | @member name value members blanks space first others hblanks hspace hfirst hothers ihfirst
      ihothers =>
    simp only [List.length_cons, List.length_append] at hfuel
    obtain ⟨fuel, rfl⟩ : ∃ less, fuel = less + 2 := ⟨fuel - 2, by omega⟩
    have hfirstFuel : first.length ≤ fuel := by omega
    have hothersFuel : others.length ≤ fuel + 1 := by omega
    have hvalue := ihfirst hfirstFuel _ (hothers.stops (by simp) rest)
    have hmembers := ihothers hothersFuel rest
    simp only [Phrase.ReadFrom, List.cons_append, List.append_assoc]
    rw [skipBlanks_cons (by decide)]
    exact readMembers?_member hblanks hspace hfirst hvalue hmembers

/-- **A text that writes a value** is read as that value. -/
theorem parse?_of_written {v : Json} {cs : List Char} (h : Written (.value v) cs) :
    parse? (String.ofList cs) = some v := by
  have hread : readValue? (cs.length + 1) cs = some (v, []) := by
    simpa using h.read (Nat.le_refl _) [] (by simp [Stops])
  have hskip : skipBlanks cs = cs := by simpa using h.skip []
  rw [parse?, String.toList_ofList, parseChars?, hskip, hread]
  rfl

/-! ## Layouts -/

mutual

/-- Whether every number of a value is plain and every text legible. -/
def isPlain : Json → Bool
  | .null | .bool _ | .str _ => true
  | .num n => n.isPlain
  | .arr items => arePlain items
  | .obj members => havePlain members
  | .illegible => false

/-- Whether all items are plain. -/
def arePlain : List Json → Bool
  | [] => true
  | item :: rest => isPlain item && arePlain rest

/-- Whether the values of all members are plain. -/
def havePlain : List (String × Json) → Bool
  | [] => true
  | (_, value) :: rest => isPlain value && havePlain rest

end

theorem arePlain_iff {items : List Json} :
    arePlain items = true ↔ ∀ item ∈ items, item.isPlain = true := by
  induction items with
  | nil => simp [arePlain]
  | cons item rest ih => rw [arePlain, Bool.and_eq_true, ih, List.forall_mem_cons]

theorem havePlain_iff {members : List (String × Json)} :
    havePlain members = true ↔ ∀ member ∈ members, member.2.isPlain = true := by
  induction members with
  | nil => simp [havePlain]
  | cons member rest ih => rw [havePlain, Bool.and_eq_true, ih, List.forall_mem_cons]

theorem areBlanks_newLine (level : Nat) : AreBlanks (newLine level) := by
  unfold AreBlanks skipBlanks newLine
  rw [List.dropWhile_eq_nil_iff]
  intro c hc
  rcases List.mem_cons.mp hc with rfl | hc
  · decide
  · rw [List.eq_of_mem_replicate hc]
    decide

mutual

/-- The layout over lines is a way to write a value. -/
theorem written_prettyChars {v : Json} (h : v.isPlain = true) (level : Nat) :
    Written (.value v) (prettyChars level v) := by
  cases v with
  | null => exact .null
  | bool b => cases b with
    | true => exact .yes
    | false => exact .no
  | num n => exact .num h
  | str text => exact .str text
  | arr items => cases items with
    | nil => exact .noItem
    | cons item rest =>
      obtain ⟨hitem, hrest⟩ := Bool.and_eq_true_iff.mp h
      exact .arr (areBlanks_newLine _) (written_prettyChars hitem _) (written_prettyItems hrest _)
  | obj members => cases members with
    | nil => exact .noMember
    | cons member rest =>
      obtain ⟨name, value⟩ := member
      obtain ⟨hvalue, hrest⟩ := Bool.and_eq_true_iff.mp h
      have hspace : AreBlanks [' '] := rfl
      exact .obj (areBlanks_newLine _) hspace (written_prettyChars hvalue _)
        (written_prettyMembers hrest _)
  | illegible => exact absurd h (by simp [isPlain])

theorem written_prettyItems {items : List Json} (h : arePlain items = true) (level : Nat) :
    Written (.items items) (prettyItems level items) := by
  cases items with
  | nil => exact .endItems (areBlanks_newLine _)
  | cons item rest =>
    obtain ⟨hitem, hrest⟩ := Bool.and_eq_true_iff.mp h
    exact .item (areBlanks_newLine _) (written_prettyChars hitem _) (written_prettyItems hrest _)

theorem written_prettyMembers {members : List (String × Json)} (h : havePlain members = true)
    (level : Nat) : Written (.members members) (prettyMembers level members) := by
  cases members with
  | nil => exact .endMembers (areBlanks_newLine _)
  | cons member rest =>
    obtain ⟨name, value⟩ := member
    obtain ⟨hvalue, hrest⟩ := Bool.and_eq_true_iff.mp h
    have hspace : AreBlanks [' '] := rfl
    exact .member (areBlanks_newLine _) hspace (written_prettyChars hvalue _)
      (written_prettyMembers hrest _)

end

/-- **A plain value that is laid out over lines is read back.** -/
theorem parse?_pretty {v : Json} (h : v.isPlain = true) : parse? v.pretty = some v :=
  parse?_of_written (written_prettyChars h 0)

mutual

/-- The layout without blanks is a way to write a value. -/
theorem written_compactChars {v : Json} (h : v.isPlain = true) :
    Written (.value v) (compactChars v) := by
  have hnone : AreBlanks [] := rfl
  cases v with
  | null => exact .null
  | bool b => cases b with
    | true => exact .yes
    | false => exact .no
  | num n => exact .num h
  | str text => exact .str text
  | arr items => cases items with
    | nil => exact .noItem
    | cons item rest =>
      obtain ⟨hitem, hrest⟩ := Bool.and_eq_true_iff.mp h
      exact .arr hnone (written_compactChars hitem) (written_compactItems hrest)
  | obj members => cases members with
    | nil => exact .noMember
    | cons member rest =>
      obtain ⟨name, value⟩ := member
      obtain ⟨hvalue, hrest⟩ := Bool.and_eq_true_iff.mp h
      exact .obj hnone hnone (written_compactChars hvalue) (written_compactMembers hrest)
  | illegible => exact absurd h (by simp [isPlain])

theorem written_compactItems {items : List Json} (h : arePlain items = true) :
    Written (.items items) (compactItems items) := by
  have hnone : AreBlanks [] := rfl
  cases items with
  | nil => exact .endItems hnone
  | cons item rest =>
    obtain ⟨hitem, hrest⟩ := Bool.and_eq_true_iff.mp h
    exact .item hnone (written_compactChars hitem) (written_compactItems hrest)

theorem written_compactMembers {members : List (String × Json)} (h : havePlain members = true) :
    Written (.members members) (compactMembers members) := by
  have hnone : AreBlanks [] := rfl
  cases members with
  | nil => exact .endMembers hnone
  | cons member rest =>
    obtain ⟨name, value⟩ := member
    obtain ⟨hvalue, hrest⟩ := Bool.and_eq_true_iff.mp h
    exact .member hnone hnone (written_compactChars hvalue) (written_compactMembers hrest)

end

/-- **A plain value that is laid out without blanks is read back.** -/
theorem parse?_compact {v : Json} (h : v.isPlain = true) : parse? v.compact = some v :=
  parse?_of_written (written_compactChars h)

end Json

end KernelCatalog
