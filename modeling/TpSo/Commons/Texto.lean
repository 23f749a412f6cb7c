import TpSo.Base.Words

/-!
# The strings

`string_split` duplicates a token that `strtok_r` did not find where only separators are left of
the text: that is the end of the process, `none`.
-/

namespace TpSo.Commons

def cadena (s : String) : List UInt8 := s.toList.map fun c => c.val.toUInt8

def isblank (c : UInt8) : Bool := c = 32 ∨ c = 9

/-- `_string_split`: tokens while the condition holds, `limite` of them, and the text after them. -/
def stringSplitHasta (text : List UInt8) (limite : ℕ) (separator : UInt8) :
    Option (List (List UInt8)) :=
  (splitTokens separator limite text).map fun p => if p.2 = [] then p.1 else p.1 ++ [p.2]

/-- A token has a character at least. -/
def stringSplit (text : List UInt8) (separator : UInt8) : Option (List (List UInt8)) :=
  stringSplitHasta text text.length separator

def stringNSplit (text : List UInt8) (n : ℕ) (separator : UInt8) : Option (List (List UInt8)) :=
  stringSplitHasta text (n - 1) separator

def stringStartsWith (text begin : List UInt8) : Bool := begin.isPrefixOf text

def stringTrimLeft (text : List UInt8) : List UInt8 := text.dropWhile isblank

def stringTrimRight (text : List UInt8) : List UInt8 := text.rdropWhile isSpace

def stringTrim (text : List UInt8) : List UInt8 := stringTrimRight (stringTrimLeft text)

def stringSubstring (text : List UInt8) (start length : ℕ) : List UInt8 :=
  (text.drop start).take length

def coma : UInt8 := 44

/-- With fewer than two characters the length of the substring is negative, and `strncpy` writes
until it fails. -/
def stringGetStringAsArray (text : List UInt8) : Option (List (List UInt8)) :=
  if text.length < 2 then none
  else (stringSplit (stringSubstring text 1 (text.length - 2)) coma).map (·.map stringTrim)

section Strings
variable {text : List UInt8} {separator : UInt8}

theorem stringSplit_eq (text : List UInt8) (separator : UInt8) :
    stringSplit text separator =
      if Stuck separator text then none else some (words separator text) := by
  rw [stringSplit, stringSplitHasta, splitTokens_eq (le_refl _), Option.map_map,
    tokens_eq_words (le_refl _)]
  split <;> rfl

/-- A list in brackets, as it is written in the files. -/
def corchetes (nombres : List (List UInt8)) : List UInt8 :=
  91 :: [coma].intercalate nombres ++ [93]

/-- A name that a list in brackets can hold. -/
structure EsNombre (nombre : List UInt8) : Prop where
  ne_nil : nombre ≠ []
  sinComa : coma ∉ nombre
  trim : stringTrim nombre = nombre

instance : DecidablePred EsNombre := fun nombre =>
  decidable_of_iff (nombre ≠ [] ∧ coma ∉ nombre ∧ stringTrim nombre = nombre)
    ⟨fun h => ⟨h.1, h.2.1, h.2.2⟩, fun h => ⟨h.ne_nil, h.sinComa, h.trim⟩⟩

theorem stringGetStringAsArray_corchetes {nombres : List (List UInt8)}
    (h : ∀ n ∈ nombres, EsNombre n) : stringGetStringAsArray (corchetes nombres) = some nombres := by
  have hwords : ∀ w ∈ nombres, w ≠ [] ∧ coma ∉ w := fun w hw =>
    ⟨(h w hw).ne_nil, (h w hw).sinComa⟩
  have hinside : stringSubstring (corchetes nombres) 1 ((corchetes nombres).length - 2) =
      [coma].intercalate nombres := by
    unfold stringSubstring corchetes
    simp
  unfold stringGetStringAsArray
  rw [if_neg (by simp [corchetes]), hinside, stringSplit_eq, if_neg (not_stuck_intercalate hwords),
    words_intercalate hwords, Option.map_some, List.map_congr_left fun n hn => (h n hn).trim]
  simp

end Strings

end TpSo.Commons
