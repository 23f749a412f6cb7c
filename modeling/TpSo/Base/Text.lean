import Mathlib.Data.Nat.Digits.Defs
import TpSo.Base.Machine

/-!
# Decimal numbers in a text

The text is the bytes of a string of C, without its end. Numbers are written as `%d` writes them and
read as `atoi` reads them; what is read back in the range of an `int` is what was written. A text is
cut at a separator as `strtok` cuts it.
-/

namespace TpSo

def isDigit (c : UInt8) : Bool := 48 ≤ c.toNat ∧ c.toNat ≤ 57

def isSpace (c : UInt8) : Bool := c = 32 ∨ 9 ≤ c.toNat ∧ c.toNat ≤ 13

/-- `%u`. -/
def decimalOfNat (n : ℕ) : List UInt8 :=
  if n = 0 then [48] else ((Nat.digits 10 n).map fun d => UInt8.ofNat (48 + d)).reverse

/-- `%d`, with a `'-'` before a negative number. -/
def decimalOfInt (x : ℤ) : List UInt8 :=
  if x < 0 then 45 :: decimalOfNat x.natAbs else decimalOfNat x.natAbs

/-- The number that the digits at the beginning stand for. -/
def natOfDecimal (text : List UInt8) : ℕ :=
  (text.takeWhile isDigit).foldl (fun n c => 10 * n + (c.toNat - 48)) 0

/-- The number at the beginning, after blanks and a sign. -/
def intOfDecimal (text : List UInt8) : ℤ :=
  match text.dropWhile isSpace with
  | 45 :: digits => -natOfDecimal digits
  | 43 :: digits => natOfDecimal digits
  | digits => natOfDecimal digits

/-- A `long`, and what is too large for it is the largest one. -/
def strtol (text : List UInt8) : ℤ := max (-2 ^ 63) (min (intOfDecimal text) (2 ^ 63 - 1))

def atoi (text : List UInt8) : ℤ := i32 (strtol text)

/-! ## What is written is read back -/

theorem digit_toNat {d : ℕ} (h : d < 10) : (UInt8.ofNat (48 + d)).toNat = 48 + d := by
  rw [UInt8.toNat_ofNat']
  omega

theorem isDigit_digit {d : ℕ} (h : d < 10) : isDigit (UInt8.ofNat (48 + d)) = true := by
  unfold isDigit
  rw [digit_toNat h]
  simp only [decide_eq_true_eq]
  omega

theorem isDigit_of_mem_decimalOfNat {n : ℕ} {c : UInt8} (h : c ∈ decimalOfNat n) :
    isDigit c = true := by
  unfold decimalOfNat at h
  split at h
  · obtain rfl := List.mem_singleton.mp h
    rfl
  · obtain ⟨d, hd, rfl⟩ := List.mem_map.mp (List.mem_reverse.mp h)
    exact isDigit_digit (Nat.digits_lt_base (by decide) hd)

theorem decimalOfNat_ne_nil (n : ℕ) : decimalOfNat n ≠ [] := by
  unfold decimalOfNat
  split
  · simp
  · next hn => simpa [Nat.digits_eq_nil_iff_eq_zero] using hn

theorem natOfDecimal_of_digits {text : List UInt8} (h : ∀ c ∈ text, isDigit c = true) :
    natOfDecimal text = text.foldl (fun n c => 10 * n + (c.toNat - 48)) 0 := by
  rw [natOfDecimal, ← List.append_nil text, List.takeWhile_append_of_pos h, List.takeWhile_nil]

/-- The digits, the least significant one first, are read from the last one on. -/
theorem foldr_digits {ds : List ℕ} (h : ∀ d ∈ ds, d < 10) :
    (ds.map fun d => UInt8.ofNat (48 + d)).foldr (fun c n => 10 * n + (c.toNat - 48)) 0 =
      Nat.ofDigits 10 ds := by
  induction ds with
  | nil => rfl
  | cons d ds ih =>
    have hrest := ih fun e he => h e (List.mem_cons_of_mem _ he)
    rw [List.map_cons, List.foldr_cons, hrest, digit_toNat (h d List.mem_cons_self),
      Nat.ofDigits_cons]
    omega

theorem natOfDecimal_decimalOfNat (n : ℕ) : natOfDecimal (decimalOfNat n) = n := by
  rw [natOfDecimal_of_digits fun c hc => isDigit_of_mem_decimalOfNat hc]
  unfold decimalOfNat
  split
  · next hn =>
    rw [hn]
    rfl
  · rw [List.foldl_reverse, foldr_digits fun d hd => Nat.digits_lt_base (by decide) hd,
      Nat.ofDigits_digits]

theorem not_isSpace_of_isDigit {c : UInt8} (h : isDigit c = true) : isSpace c = false := by
  simp only [isDigit, decide_eq_true_eq] at h
  have hblank : c ≠ 32 := by
    rintro rfl
    exact absurd h.1 (by decide)
  simp only [isSpace, decide_eq_false_iff_not, hblank, false_or]
  omega

theorem intOfDecimal_of_digits {text : List UInt8} (hne : text ≠ [])
    (h : ∀ c ∈ text, isDigit c = true) : intOfDecimal text = natOfDecimal text := by
  obtain ⟨c, rest, rfl⟩ := List.exists_cons_of_ne_nil hne
  have hc := h c List.mem_cons_self
  have hspace : isSpace c = false := not_isSpace_of_isDigit hc
  unfold intOfDecimal
  rw [List.dropWhile_cons_of_neg (by simp [hspace])]
  split
  · next heq =>
    rw [(List.cons.inj heq).1] at hc
    cases hc
  · next heq =>
    rw [(List.cons.inj heq).1] at hc
    cases hc
  · rfl

theorem intOfDecimal_decimalOfInt (x : ℤ) : intOfDecimal (decimalOfInt x) = x := by
  unfold decimalOfInt
  split
  · have hread := natOfDecimal_decimalOfNat x.natAbs
    change -(natOfDecimal (decimalOfNat x.natAbs) : ℤ) = x
    omega
  · have hread := natOfDecimal_decimalOfNat x.natAbs
    rw [intOfDecimal_of_digits (decimalOfNat_ne_nil _) fun c hc => isDigit_of_mem_decimalOfNat hc]
    omega

theorem atoi_decimalOfInt {x : ℤ} (hlow : -2147483648 ≤ x) (hhigh : x < 2147483648) :
    atoi (decimalOfInt x) = x := by
  have hlong : strtol (decimalOfInt x) = x := by
    rw [strtol, intOfDecimal_decimalOfInt]
    omega
  rw [atoi, hlong, i32_of_range hlow hhigh]

theorem decimalOfInt_ne_nil (x : ℤ) : decimalOfInt x ≠ [] := by
  unfold decimalOfInt
  split
  · simp
  · exact decimalOfNat_ne_nil _

theorem not_mem_decimalOfInt {x : ℤ} {c : UInt8} (hdigit : isDigit c = false) (hsign : c ≠ 45) :
    c ∉ decimalOfInt x := by
  have hnat : c ∉ decimalOfNat x.natAbs := by
    intro hc
    rw [isDigit_of_mem_decimalOfNat hc] at hdigit
    cases hdigit
  unfold decimalOfInt
  split
  · exact fun hc => (List.mem_cons.mp hc).elim hsign hnat
  · exact hnat

/-! ## Tokens -/

/-- At most `n` tokens: each is what is left of the text, without the separators at its beginning,
up to the next separator, which goes with it. If there are only separators left, there is no
token. -/
def tokens (separator : UInt8) : ℕ → List UInt8 → Option (List (List UInt8))
  | 0, _ => some []
  | n + 1, text =>
    if text = [] then some []
    else
      let rest := text.dropWhile (· = separator)
      if rest = [] then none
      else (tokens separator n ((rest.dropWhile (· ≠ separator)).drop 1)).map
        (rest.takeWhile (· ≠ separator) :: ·)

section Tokens
variable {separator : UInt8} {token rest : List UInt8} {n : ℕ}

theorem takeWhile_token (h : separator ∉ token) (hrest : rest.head? = some separator ∨ rest = []) :
    (token ++ rest).takeWhile (· ≠ separator) = token ∧
      (token ++ rest).dropWhile (· ≠ separator) = rest := by
  have hall : ∀ c ∈ token, decide (c ≠ separator) = true := by
    intro c hc
    simp only [decide_eq_true_eq]
    rintro rfl
    exact h hc
  rw [List.takeWhile_append_of_pos hall, List.dropWhile_append_of_pos hall]
  rcases hrest with hrest | rfl
  · obtain ⟨rest', rfl⟩ : ∃ rest', rest = separator :: rest' := by
      cases rest with
      | nil => cases hrest
      | cons c rest' => exact ⟨rest', by rw [Option.some.inj hrest]⟩
    simp
  · simp

theorem tokens_token (hne : token ≠ []) (h : separator ∉ token)
    (hrest : rest.head? = some separator ∨ rest = []) :
    tokens separator (n + 1) (token ++ rest) =
      (tokens separator n (rest.drop 1)).map (token :: ·) := by
  obtain ⟨c, token', rfl⟩ := List.exists_cons_of_ne_nil hne
  have hc : c ≠ separator := by
    rintro rfl
    exact h List.mem_cons_self
  have hstart : (c :: token' ++ rest).dropWhile (· = separator) = c :: token' ++ rest := by
    rw [List.cons_append, List.dropWhile_cons_of_neg (by simpa using hc)]
  obtain ⟨htake, hdrop⟩ := takeWhile_token h hrest
  rw [tokens, if_neg (by simp)]
  dsimp only
  rw [hstart, if_neg (by simp), htake, hdrop]

theorem tokens_cons (hne : token ≠ []) (h : separator ∉ token) :
    tokens separator (n + 1) (token ++ separator :: rest) =
      (tokens separator n rest).map (token :: ·) :=
  tokens_token hne h (.inl rfl)

theorem tokens_last (hne : token ≠ []) (h : separator ∉ token) :
    tokens separator (n + 1) token = some [token] := by
  have hlast : tokens separator (n + 1) (token ++ []) = (tokens separator n []).map (token :: ·) :=
    tokens_token hne h (.inr rfl)
  rw [List.append_nil] at hlast
  rw [hlast]
  cases n <;> rfl

end Tokens

end TpSo
