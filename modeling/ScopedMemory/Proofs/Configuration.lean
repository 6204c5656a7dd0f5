import Mathlib.Tactic.Common
import ScopedMemory.Config

/-! How variables set a configuration.

Trimming leaves the text between the blanks at both ends (`Text.Trims`). Digits are read up to the
one that makes the number too large; since the number only grows, this refuses exactly the numerals
that denote too large a number (`Text.readDigits?_eq_some_iff`). A word is compared in lower case.
Lowering maps no other character to one of the letters of the words, but for the two cases of the
letter, so letters outside of ASCII never spell a word (`Text.lowercase_eq_iff`). -/
namespace ScopedMemory

namespace Text

/-! ### Blanks -/

/-- Nothing but blanks. -/
def Blanks (cs : List Char) : Prop := ∀ c ∈ cs, isBlank c = true

/-- The core of a text: what is left between the blanks at both ends. -/
structure Trims (text core : List Char) : Prop where
  between : ∃ front back, text = front ++ (core ++ back) ∧ Blanks front ∧ Blanks back
  first : ∀ c, core.head? = some c → isBlank c = false
  last : ∀ c, core.getLast? = some c → isBlank c = false

theorem dropWhile_blanks {cs : List Char} (h : Blanks cs) : cs.dropWhile isBlank = [] := by
  rw [← List.append_nil cs, List.dropWhile_append_of_pos h, List.dropWhile_nil]

/-- Blanks are dropped up to the first character that is none. -/
theorem dropWhile_front {front rest : List Char} (h : Blanks front)
    (hfirst : ∀ c, rest.head? = some c → isBlank c = false) :
    (front ++ rest).dropWhile isBlank = rest := by
  rw [List.dropWhile_append_of_pos h]
  cases rest with
  | nil => rfl
  | cons c rest => simp [hfirst c rfl]

theorem head?_dropWhile (cs : List Char) {c : Char} (h : (cs.dropWhile isBlank).head? = some c) :
    isBlank c = false := by
  have hhead := List.head?_dropWhile_not isBlank cs
  rwa [h] at hhead

theorem blanks_takeWhile (cs : List Char) : Blanks (cs.takeWhile isBlank) :=
  List.all_eq_true.mp List.all_takeWhile

/-- The core is what trimming leaves. -/
theorem Trims.eq {text core : List Char} (h : Trims text core) : trimChars text = core := by
  obtain ⟨front, back, rfl, hfront, hback⟩ := h.between
  cases core with
  | nil =>
    have hall : Blanks (front ++ ([] ++ back)) := by
      intro c hc
      rcases List.mem_append.mp hc with hc | hc
      · exact hfront c hc
      · exact hback c hc
    rw [trimChars, dropWhile_blanks hall]
    rfl
  | cons c core =>
    have hback' : Blanks back.reverse := fun c hc => hback c (List.mem_reverse.mp hc)
    have hend : ∀ d, (c :: core).reverse.head? = some d → isBlank d = false := by
      intro d hd
      apply h.last
      rwa [List.head?_reverse] at hd
    have hstart : ∀ d, (c :: core ++ back).head? = some d → isBlank d = false := h.first
    rw [trimChars, dropWhile_front hfront hstart, List.reverse_append, dropWhile_front hback' hend,
      List.reverse_reverse]

/-- Every text has a core. -/
theorem trims_trimChars (text : List Char) : Trims text (trimChars text) := by
  let rest := text.dropWhile isBlank
  have hrest : rest = trimChars text ++ (rest.reverse.takeWhile isBlank).reverse := by
    apply List.reverse_inj.mp
    rw [List.reverse_append, List.reverse_reverse, trimChars, List.reverse_reverse,
      List.takeWhile_append_dropWhile]
  refine ⟨⟨text.takeWhile isBlank, (rest.reverse.takeWhile isBlank).reverse, ?_, ?_, ?_⟩, ?_, ?_⟩
  · rw [← hrest, List.takeWhile_append_dropWhile]
  · exact blanks_takeWhile text
  · intro c hc
    exact blanks_takeWhile _ c (List.mem_reverse.mp hc)
  · intro c hc
    apply head?_dropWhile text
    show rest.head? = some c
    rw [hrest, List.head?_append, hc]
    rfl
  · intro c hc
    apply head?_dropWhile rest.reverse
    rwa [trimChars, List.getLast?_reverse] at hc

/-! ### Numerals -/

/-- A numeral denotes the number: after a sign, if there is one, stand digits and nothing else. -/
def Denotes (cs : List Char) (n : Nat) : Prop :=
  ∃ digits, (cs = digits ∨ cs = '+' :: digits) ∧ digits ≠ [] ∧ (∀ c ∈ digits, c.isDigit = true) ∧
    Nat.ofDigitChars 10 digits 0 = n

/-- More digits never make a smaller number. -/
theorem le_ofDigitChars (digits : List Char) (front : Nat) :
    front ≤ Nat.ofDigitChars 10 digits front := by
  induction digits generalizing front with
  | nil => exact Nat.le_refl front
  | cons c rest ih =>
    rw [Nat.ofDigitChars_cons]
    refine Nat.le_trans ?_ (ih _)
    omega

/-- **Digits are read exactly if the whole number is below the bound.** -/
theorem readDigits?_eq_some_iff {bound front : Nat} (digits : List Char) (h : front < bound) {n : Nat} :
    readDigits? bound front digits = some n ↔
      (∀ c ∈ digits, c.isDigit = true) ∧ Nat.ofDigitChars 10 digits front = n ∧ n < bound := by
  induction digits generalizing front with
  | nil =>
    simp only [readDigits?, Nat.ofDigitChars_nil, Option.some.injEq]
    constructor
    · rintro rfl
      exact ⟨by simp, rfl, h⟩
    · exact fun hn => hn.2.1
  | cons c rest ih =>
    have hvalue : 10 * front + (c.toNat - '0'.toNat) = 10 * front + digitValue c := rfl
    rw [readDigits?, Nat.ofDigitChars_cons, hvalue, List.forall_mem_cons]
    by_cases hc : c.isDigit = true
    · by_cases hnext : 10 * front + digitValue c < bound
      · simp only [hc, hnext, if_true, ih hnext, true_and]
      · -- the number is too large already, and stays so
        have hgrows := le_ofDigitChars rest (10 * front + digitValue c)
        simp only [hc, hnext, if_true, if_false, reduceCtorEq, true_and, false_iff, not_and]
        omega
    · simp [hc]

theorem unsigned_of_digits {digits : List Char} (h : ∀ c ∈ digits, c.isDigit = true) :
    unsigned digits = digits := by
  unfold unsigned
  split
  · exact absurd (h '+' List.mem_cons_self) (by decide)
  · rfl

/-- What is read as a number is a numeral of it. -/
theorem numeral?_eq_some_iff {bound : Nat} (positive : 0 < bound) (text : String) (n : Nat) :
    numeral? bound text = some n ↔ Denotes text.toList n ∧ n < bound := by
  have hread : numeral? bound text = some n ↔ unsigned text.toList ≠ [] ∧
      readDigits? bound 0 (unsigned text.toList) = some n := by
    simp [numeral?]
  rw [hread, readDigits?_eq_some_iff _ positive]
  constructor
  · rintro ⟨hsome, hdigits, hvalue, hbound⟩
    refine ⟨⟨unsigned text.toList, ?_, hsome, hdigits, hvalue⟩, hbound⟩
    unfold unsigned
    split <;> simp [*]
  · rintro ⟨⟨digits, htext, hsome, hdigits, hvalue⟩, hbound⟩
    have hunsigned : unsigned text.toList = digits := by
      rcases htext with htext | htext
      · rw [htext, unsigned_of_digits hdigits]
      · rw [htext]
        rfl
    rw [hunsigned]
    exact ⟨hsome, hdigits, hvalue, hbound⟩

theorem isBlank_of_isDigit {c : Char} (h : c.isDigit = true) : isBlank c = false := by
  simp only [Char.isDigit, Bool.and_eq_true, decide_eq_true_eq] at h
  have hlow : 48 ≤ c.toNat := UInt32.le_iff_toNat_le.mp h.1
  have hhigh : c.toNat ≤ 57 := UInt32.le_iff_toNat_le.mp h.2
  simp only [isBlank, Bool.or_eq_false_iff, Bool.and_eq_false_iff, decide_eq_false_iff_not,
    beq_eq_false_iff_ne]
  omega

/-- Blanks around a numeral are what trimming takes away. -/
theorem Denotes.trims {core front back : List Char} {n : Nat} (h : Denotes core n)
    (hfront : Blanks front) (hback : Blanks back) : Trims (front ++ (core ++ back)) core := by
  obtain ⟨digits, hcore, -, hdigits, -⟩ := h
  have hsolid : ∀ c ∈ core, isBlank c = false := by
    intro c hc
    rcases hcore with rfl | rfl
    · exact isBlank_of_isDigit (hdigits c hc)
    · rcases List.mem_cons.mp hc with rfl | hc
      · decide
      · exact isBlank_of_isDigit (hdigits c hc)
  refine ⟨⟨front, back, rfl, hfront, hback⟩, ?_, ?_⟩
  · exact fun c hc => hsolid c (List.mem_of_mem_head? hc)
  · exact fun c hc => hsolid c (List.mem_of_getLast? hc)

/-- The decimal digits of a number, with zeros in front and with a sign or without. -/
def written (signed : Bool) (zeros n : Nat) : List Char :=
  (if signed then ['+'] else []) ++ (List.replicate zeros '0' ++ (toString n).toList)

/-- A number is denoted by its digits. -/
theorem denotes_written (signed : Bool) (zeros n : Nat) : Denotes (written signed zeros n) n := by
  have hdigits : (toString n).toList = Nat.toDigits 10 n := by
    rw [Nat.toString_eq_ofList_toDigits, String.toList_ofList]
  refine ⟨List.replicate zeros '0' ++ (toString n).toList, ?_, ?_, ?_, ?_⟩
  · cases signed <;> simp [written]
  · simp [Nat.toDigits_ne_nil]
  · intro c hc
    rw [hdigits] at hc
    rcases List.mem_append.mp hc with hc | hc
    · rw [List.eq_of_mem_replicate hc]
      decide
    · exact Nat.isDigit_of_mem_toDigits (by decide) (by decide) hc
  · rw [Nat.ofDigitChars_append, Nat.ofDigitChars_replicate_zero, Nat.mul_zero, hdigits,
      Nat.ofDigitChars_ten_toDigits]

/-! ### Words -/

/-- Digits, and the small letters that are lowered from their own two cases only. The sign for
Kelvin is a letter of its own and is lowered to `k`. -/
def isPlain (c : Char) : Bool := (c.isLower || c.isDigit) && c != 'k'

theorem isPlain_of_large {c : Char} (h : 0x80 ≤ c.toNat) : isPlain c = false := by
  have hlower : c.isLower = false := by
    show (decide (c.val ≥ 97) && decide (c.val ≤ 122)) = false
    rw [Bool.and_eq_false_iff, decide_eq_false_iff_not, decide_eq_false_iff_not]
    right
    intro hle
    have hnat : c.toNat ≤ 122 := UInt32.le_iff_toNat_le.mp hle
    omega
  have hdigit : c.isDigit = false := by
    simp only [Char.isDigit, Bool.and_eq_false_iff, decide_eq_false_iff_not]
    right
    intro hle
    have hnat : c.toNat ≤ 57 := UInt32.le_iff_toNat_le.mp hle
    omega
  simp [isPlain, hlower, hdigit]

theorem isPlain_ofNat {n : Nat} (h : 0x80 ≤ n) : isPlain (Char.ofNat n) = false := by
  by_cases hvalid : n.isValidChar
  · apply isPlain_of_large
    rw [Char.ofNat, dif_pos hvalid]
    exact h
  · rw [Char.ofNat, dif_neg hvalid]
    decide

/-- Capitals outside of ASCII have small letters outside of ASCII, but for the sign for Kelvin. -/
theorem capitalRuns_beyond : ∀ run ∈ capitalRuns, run.last < 0x80 ∨
    0x80 ≤ run.first + run.distance ∨
      run.first = run.last ∧ run.first + run.distance = 'k'.toNat := by
  decide +kernel

theorem lowerChar_beyond {c : Char} (h : 0x80 ≤ c.toNat) : ∃ d ∈ lowerChar c, isPlain d = false := by
  unfold lowerChar
  rw [if_neg (by omega)]
  split
  · exact ⟨Char.ofNat 0x307, by simp, by decide⟩
  · split
    · rename_i run hrun
      have hcovers := List.find?_some hrun
      have hmem := List.mem_of_find?_eq_some hrun
      simp only [CapitalRun.covers, Bool.and_eq_true, decide_eq_true_eq] at hcovers
      refine ⟨_, List.mem_singleton.mpr rfl, ?_⟩
      rcases capitalRuns_beyond run hmem with hlast | hlarge | ⟨hone, hkelvin⟩
      · omega
      · apply isPlain_ofNat
        omega
      · have hk : ((c.toNat : Int) + run.distance).toNat = 'k'.toNat := by omega
        rw [hk]
        decide
    · exact ⟨c, by simp, isPlain_of_large h⟩

theorem lowerAfter_of_ascii {cs : List Char} (h : ∀ c ∈ cs, c.toNat < 0x80) (seen : List Char) :
    lowerAfter seen cs = cs.map Char.toLower := by
  induction cs generalizing seen with
  | nil => rfl
  | cons c rest ih =>
    have hc := h c List.mem_cons_self
    have hsigma : c ≠ 'Σ' := by
      rintro rfl
      revert hc
      decide
    rw [lowerAfter, ih (fun d hd => h d (List.mem_cons_of_mem c hd))]
    simp [hsigma, lowerChar, hc]

/-- What is lowered to plain characters has none outside of ASCII. -/
theorem ascii_of_lowerAfter {cs seen : List Char} (h : ∀ d ∈ lowerAfter seen cs, isPlain d = true) :
    ∀ c ∈ cs, c.toNat < 0x80 := by
  induction cs generalizing seen with
  | nil => simp
  | cons c rest ih =>
    rw [lowerAfter] at h
    refine List.forall_mem_cons.mpr ⟨?_, ih fun d hd => h d (List.mem_append_right _ hd)⟩
    by_contra hlarge
    have hsmall := fun d hd => h d (List.mem_append_left _ hd)
    by_cases hsigma : c = 'Σ'
    · simp only [hsigma, if_true] at hsmall
      split at hsmall
      · exact absurd (hsmall 'ς' List.mem_cons_self) (by decide)
      · exact absurd (hsmall 'σ' List.mem_cons_self) (by decide)
    · simp only [hsigma, if_false] at hsmall
      obtain ⟨d, hd, hplain⟩ := lowerChar_beyond (Nat.le_of_not_lt hlarge)
      exact absurd (hsmall d hd) (by simp [hplain])

theorem ascii_of_toLower {c : Char} (h : isPlain c.toLower = true) : c.toNat < 0x80 := by
  by_contra hlarge
  have hsame : c.toLower = c := by
    apply dif_neg
    rintro ⟨-, hle⟩
    have hnat : c.toNat ≤ 90 := UInt32.le_iff_toNat_le.mp hle
    omega
  rw [hsame, isPlain_of_large (Nat.le_of_not_lt hlarge)] at h
  exact Bool.false_ne_true h

/-- **A plain word is spelled in the two cases of ASCII** and in no other way. -/
theorem lowercase_eq_iff {word : String} (plain : ∀ d ∈ word.toList, isPlain d = true)
    (text : String) : lowercase text = word ↔ text.toList.map Char.toLower = word.toList := by
  have hlist : lowercase text = word ↔ lowerAfter [] text.toList = word.toList := by
    rw [lowercase, ← String.toList_inj, String.toList_ofList]
  rw [hlist]
  constructor
  · intro h
    rw [← h] at plain
    rw [← h, lowerAfter_of_ascii (ascii_of_lowerAfter plain)]
  · intro h
    rw [← h] at plain
    have hascii : ∀ c ∈ text.toList, c.toNat < 0x80 :=
      fun c hc => ascii_of_toLower (plain _ (List.mem_map_of_mem hc))
    rw [← h, lowerAfter_of_ascii hascii]

end Text

namespace ArenaConfig
open Text

/-! ### Fields -/

/-- A variable gives the number that its text denotes between blanks, if that is below the bound. -/
def Gives (value? : Option String) (bound n : Nat) : Prop :=
  ∃ text core, value? = some text ∧ Trims text.toList core ∧ Denotes core n ∧ n < bound

/-- A variable says one of the words: its text is that word in lower case, between blanks. -/
def Says (value? : Option String) (words : List String) : Prop :=
  ∃ text core, value? = some text ∧ Trims text.toList core ∧ lowercase (String.ofList core) ∈ words

/-- How a variable sets a number. -/
structure SetsNumber (value? : Option String) (bound usual set : Nat) : Prop where
  given : ∀ n, Gives value? bound n → set = n
  otherwise : (¬ ∃ n, Gives value? bound n) → set = usual

def agreeing : List String := ["true", "1", "yes", "on"]

def declining : List String := ["false", "0", "no", "off"]

/-- How a variable sets a switch. -/
structure SetsSwitch (value? : Option String) (usual set : Bool) : Prop where
  on : Says value? agreeing → set = true
  off : Says value? declining → set = false
  otherwise : ¬ Says value? (agreeing ++ declining) → set = usual

theorem gives_iff {bound : Nat} (positive : 0 < bound) (value? : Option String) (n : Nat) :
    Gives value? bound n ↔ value?.bind (numeral? bound ∘ trim) = some n := by
  simp only [Option.bind_eq_some_iff, Function.comp_apply, numeral?_eq_some_iff positive, trim,
    String.toList_ofList]
  constructor
  · rintro ⟨text, core, htext, hcore, hdenotes, hbound⟩
    rw [← hcore.eq] at hdenotes
    exact ⟨text, htext, hdenotes, hbound⟩
  · rintro ⟨text, htext, hdenotes, hbound⟩
    exact ⟨text, _, htext, trims_trimChars text.toList, hdenotes, hbound⟩

theorem setsNumber (bound : Nat) (positive : 0 < bound) (value? : Option String) (usual : Nat) :
    SetsNumber value? bound usual ((value?.bind (numeral? bound ∘ trim)).getD usual) := by
  constructor
  · intro n hn
    rw [(gives_iff positive value? n).mp hn, Option.getD_some]
  · intro hnone
    have hbind : value?.bind (numeral? bound ∘ trim) = none := by
      rw [Option.eq_none_iff_forall_ne_some]
      intro n hn
      exact hnone ⟨n, (gives_iff positive value? n).mpr hn⟩
    rw [hbind, Option.getD_none]

theorem lt_of_bind {bound n : Nat} (positive : 0 < bound) {value? : Option String}
    (h : value?.bind (numeral? bound ∘ trim) = some n) : n < bound := by
  obtain ⟨text, core, -, -, -, hbound⟩ := (gives_iff positive value? n).mpr h
  exact hbound

theorem toNat_maxAllocation (lookup : String → Option String) :
    (ofVariables lookup).maxAllocation.toNat =
      ((lookup "FATHOM_MAX_ALLOC_BYTES").bind (numeral? (1 <<< 64) ∘ trim)).getD
        ({} : ArenaConfig).maxAllocation.toNat := by
  unfold ofVariables
  dsimp only
  cases h : (lookup "FATHOM_MAX_ALLOC_BYTES").bind (numeral? (1 <<< 64) ∘ trim) with
  | none => rfl
  | some n => exact UInt64.toNat_ofNat_of_lt' (lt_of_bind (by decide) h)

theorem toNat_spinLimit (lookup : String → Option String) :
    (ofVariables lookup).spinLimit.toNat =
      ((lookup "FATHOM_DRAIN_SPINS").bind (numeral? (1 <<< 32) ∘ trim)).getD
        ({} : ArenaConfig).spinLimit.toNat := by
  unfold ofVariables
  dsimp only
  cases h : (lookup "FATHOM_DRAIN_SPINS").bind (numeral? (1 <<< 32) ∘ trim) with
  | none => rfl
  | some n => exact UInt32.toNat_ofNat_of_lt' (lt_of_bind (by decide) h)

theorem says_iff (value? : Option String) (words : List String) :
    Says value? words ↔ ∃ text, value? = some text ∧ lowercase (trim text) ∈ words := by
  constructor
  · rintro ⟨text, core, htext, hcore, hword⟩
    rw [← hcore.eq] at hword
    exact ⟨text, htext, hword⟩
  · rintro ⟨text, htext, hword⟩
    exact ⟨text, _, htext, trims_trimChars text.toList, hword⟩

theorem parseSwitch?_eq (text : String) :
    parseSwitch? text =
      if lowercase (trim text) ∈ agreeing then some true
      else if lowercase (trim text) ∈ declining then some false else none := rfl

theorem setsSwitch (value? : Option String) (usual : Bool) :
    SetsSwitch value? usual ((value?.bind parseSwitch?).getD usual) := by
  have hapart : ∀ word ∈ declining, word ∉ agreeing := by decide
  constructor
  · rw [says_iff]
    rintro ⟨text, rfl, hword⟩
    rw [Option.bind_some, parseSwitch?_eq, if_pos hword, Option.getD_some]
  · rw [says_iff]
    rintro ⟨text, rfl, hword⟩
    rw [Option.bind_some, parseSwitch?_eq, if_neg (hapart _ hword), if_pos hword, Option.getD_some]
  · rw [says_iff]
    intro hnone
    cases value? with
    | none => rfl
    | some text =>
      have hother : lowercase (trim text) ∉ agreeing ++ declining := fun hword =>
        hnone ⟨text, rfl, hword⟩
      rw [List.mem_append, not_or] at hother
      rw [Option.bind_some, parseSwitch?_eq, if_neg hother.1, if_neg hother.2, Option.getD_none]

theorem zeroed_eq (lookup : String → Option String) :
    (ofVariables lookup).zeroed =
      ((lookup "FATHOM_ZERO_MEMORY").bind parseSwitch?).getD ({} : ArenaConfig).zeroed := by
  unfold ofVariables
  dsimp only
  cases (lookup "FATHOM_ZERO_MEMORY").bind parseSwitch? <;> rfl

theorem gives_written {value? : Option String} {front back : List Char} {signed : Bool}
    {zeros n bound : Nat}
    (hvalue : value? = some (String.ofList (front ++ (written signed zeros n ++ back))))
    (hfront : Blanks front) (hback : Blanks back) (hbound : n < bound) : Gives value? bound n := by
  have hdenotes := denotes_written signed zeros n
  refine ⟨_, written signed zeros n, hvalue, ?_, hdenotes, hbound⟩
  rw [String.toList_ofList]
  exact hdenotes.trims hfront hback

/-- **Variables set a configuration exactly.** The largest allocation and the spins are the numbers
that their variables denote, between blanks and with an optional plus sign, if these fit. Whether
blocks are zeroed is said by one of eight words, in either case. Each depends on a variable of its
own. -/
theorem variables_set_exactly (lookup : String → Option String) :
    SetsNumber (lookup "FATHOM_MAX_ALLOC_BYTES") (1 <<< 64) ({} : ArenaConfig).maxAllocation.toNat
      (ofVariables lookup).maxAllocation.toNat ∧
    SetsNumber (lookup "FATHOM_DRAIN_SPINS") (1 <<< 32) ({} : ArenaConfig).spinLimit.toNat
      (ofVariables lookup).spinLimit.toNat ∧
    SetsSwitch (lookup "FATHOM_ZERO_MEMORY") ({} : ArenaConfig).zeroed (ofVariables lookup).zeroed ∧
    (∀ word ∈ agreeing ++ declining, ∀ text,
      lowercase text = word ↔ text.toList.map Char.toLower = word.toList) ∧
    (∀ other : String → Option String,
      (other "FATHOM_MAX_ALLOC_BYTES" = lookup "FATHOM_MAX_ALLOC_BYTES" →
        (ofVariables other).maxAllocation = (ofVariables lookup).maxAllocation) ∧
      (other "FATHOM_DRAIN_SPINS" = lookup "FATHOM_DRAIN_SPINS" →
        (ofVariables other).spinLimit = (ofVariables lookup).spinLimit) ∧
      (other "FATHOM_ZERO_MEMORY" = lookup "FATHOM_ZERO_MEMORY" →
        (ofVariables other).zeroed = (ofVariables lookup).zeroed)) ∧
    ∀ front back signed zeros n, Blanks front → Blanks back →
      (lookup "FATHOM_MAX_ALLOC_BYTES" =
          some (String.ofList (front ++ (written signed zeros n ++ back))) → n < 1 <<< 64 →
        (ofVariables lookup).maxAllocation.toNat = n) ∧
      (lookup "FATHOM_DRAIN_SPINS" =
          some (String.ofList (front ++ (written signed zeros n ++ back))) → n < 1 <<< 32 →
        (ofVariables lookup).spinLimit.toNat = n) := by
  have hmax := setsNumber (1 <<< 64) (by decide) (lookup "FATHOM_MAX_ALLOC_BYTES")
    ({} : ArenaConfig).maxAllocation.toNat
  have hspins := setsNumber (1 <<< 32) (by decide) (lookup "FATHOM_DRAIN_SPINS")
    ({} : ArenaConfig).spinLimit.toNat
  rw [← toNat_maxAllocation] at hmax
  rw [← toNat_spinLimit] at hspins
  have hzeroed := setsSwitch (lookup "FATHOM_ZERO_MEMORY") ({} : ArenaConfig).zeroed
  rw [← zeroed_eq] at hzeroed
  refine ⟨hmax, hspins, hzeroed, ?_, ?_, ?_⟩
  · have hplain : (agreeing ++ declining).all (fun word => word.toList.all isPlain) = true := by
      decide +kernel
    intro word hword
    apply lowercase_eq_iff
    exact List.all_eq_true.mp (List.all_eq_true.mp hplain word hword)
  · intro other
    refine ⟨?_, ?_, ?_⟩
    · intro h
      apply UInt64.toNat_inj.mp
      rw [toNat_maxAllocation, toNat_maxAllocation, h]
    · intro h
      apply UInt32.toNat_inj.mp
      rw [toNat_spinLimit, toNat_spinLimit, h]
    · intro h
      rw [zeroed_eq, zeroed_eq, h]
  · intro front back signed zeros n hfront hback
    exact ⟨fun hvalue hbound => hmax.given n (gives_written hvalue hfront hback hbound),
      fun hvalue hbound => hspins.given n (gives_written hvalue hfront hback hbound)⟩

/-- The largest word is read between unusual blanks, one spin more than fit is not read, and a word
counts in mixed case. -/
theorem variables_set_exactly_limits :
    let lookup : String → Option String := fun name =>
      if name = "FATHOM_MAX_ALLOC_BYTES" then some "\u3000+0018446744073709551615\n"
      else if name = "FATHOM_DRAIN_SPINS" then some "4294967296"
      else if name = "FATHOM_ZERO_MEMORY" then some " oFF"
      else none
    (ofVariables lookup).maxAllocation.toNat = 18446744073709551615 ∧
    (ofVariables lookup).spinLimit.toNat = 64 ∧ (ofVariables lookup).zeroed = false := by
  intro lookup
  obtain ⟨-, hspins, hzeroed, -, -, hback⟩ := variables_set_exactly lookup
  refine ⟨?_, ?_, ?_⟩
  · apply (hback ['\u3000'] ['\n'] true 2 18446744073709551615 _ _).1 _ (by decide)
    · exact List.all_eq_true.mp (by decide)
    · exact List.all_eq_true.mp (by decide)
    · decide +kernel
  · apply hspins.otherwise
    rintro ⟨n, hn⟩
    have hread := (gives_iff (by decide) _ n).mp hn
    have hnone : (lookup "FATHOM_DRAIN_SPINS").bind (numeral? (1 <<< 32) ∘ trim) = none := by
      decide +kernel
    rw [hnone] at hread
    cases hread
  · apply hzeroed.off
    rw [says_iff]
    exact ⟨" oFF", rfl, by decide +kernel⟩

end ArenaConfig

end ScopedMemory
