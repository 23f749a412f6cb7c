import Mathlib.Data.List.DropRight
import Mathlib.Data.List.Infix
import TpSo.Base.Text

/-!
# The words of a text

`tokens` cuts a text as `strtok` does, and gives up where only separators are left of it. Where it
does not, and is not stopped by the number of tokens, its answer is the words: what is between the
separators, without the empty ones.
-/

namespace TpSo

section Words
variable {separator c : UInt8} {text rest word : List UInt8} {n : ℕ}

def words (separator : UInt8) (text : List UInt8) : List (List UInt8) :=
  (text.splitOn separator).filter (· ≠ [])

/-- After the last word there are separators, but for one. -/
def Stuck (separator : UInt8) (text : List UInt8) : Prop :=
  text = [separator] ∨ [separator, separator] <:+ text

instance : Decidable (Stuck separator text) := inferInstanceAs (Decidable (_ ∨ _))

@[simp] theorem words_nil : words separator [] = [] := by simp [words]

theorem words_append_separator (text rest : List UInt8) :
    words separator (text ++ separator :: rest) = words separator text ++ words separator rest := by
  rw [words, List.splitOn_append_cons_self, List.filter_append, words, words]

theorem words_cons_separator (rest : List UInt8) :
    words separator (separator :: rest) = words separator rest := by
  simpa using words_append_separator [] rest

theorem words_dropWhile (text : List UInt8) :
    words separator (text.dropWhile (· = separator)) = words separator text := by
  induction text with
  | nil => rfl
  | cons c text ih =>
    by_cases hc : c = separator
    · subst hc
      rw [List.dropWhile_cons_of_pos (by simp), ih, words_cons_separator]
    · rw [List.dropWhile_cons_of_neg (by simpa using hc)]

theorem words_single (hne : word ≠ []) (h : separator ∉ word) : words separator word = [word] := by
  rw [words, List.splitOn_eq_singleton h]
  simp [hne]

theorem not_stuck_nil : ¬ Stuck separator [] := by simp [Stuck]

theorem stuck_iff : Stuck separator text ↔
    text.reverse = [separator] ∨ [separator, separator] <+: text.reverse := by
  rw [Stuck, ← List.reverse_prefix, List.reverse_eq_iff]
  rfl

theorem not_stuck_concat (text : List UInt8) (hc : c ≠ separator) :
    ¬ Stuck separator (text ++ [c]) := by
  rw [stuck_iff, List.reverse_concat, List.cons_prefix_cons]
  rintro (h | h)
  · exact hc (List.cons.inj h).1
  · exact hc h.1.symm

theorem stuck_append (hc : c ≠ separator) :
    Stuck separator (text ++ c :: rest) ↔ Stuck separator (c :: rest) := by
  have hreverse : (text ++ c :: rest).reverse = rest.reverse ++ c :: text.reverse := by simp
  rw [stuck_iff, stuck_iff, hreverse, List.reverse_cons]
  rcases rest.reverse with - | ⟨a, - | ⟨b, after⟩⟩
  · simp [hc, Ne.symm hc]
  · simp [Ne.symm hc]
  · simp

theorem stuck_cons_iff (hc : c ≠ separator) :
    Stuck separator (c :: separator :: rest) ↔ Stuck separator rest := by
  have hreverse : (c :: separator :: rest).reverse = rest.reverse ++ [separator, c] := by simp
  rw [stuck_iff, stuck_iff, hreverse]
  rcases rest.reverse with - | ⟨a, - | ⟨b, after⟩⟩
  · simp [Ne.symm hc]
  · simp only [List.cons_append, List.nil_append, List.cons.injEq, List.cons_prefix_cons,
      List.nil_prefix, and_true, eq_comm (a := a)]
    simp
  · simp

theorem stuck_of_all (hne : text ≠ []) (h : ∀ c ∈ text, c = separator) : Stuck separator text := by
  rw [List.eq_replicate_of_mem h]
  rcases he : text.length with - | ⟨- | k⟩
  · exact absurd (List.length_eq_zero_iff.mp he) hne
  · exact .inl rfl
  · right
    rw [List.replicate_succ', List.replicate_succ', List.append_assoc]
    exact List.suffix_append _ _

theorem exists_word (hc : c ≠ separator) (text : List UInt8) : ∃ word last after,
    c :: text = word ++ last :: after ∧ separator ∉ word ++ [last] ∧
      (after.head? = some separator ∨ after = []) := by
  induction text generalizing c with
  | nil => exact ⟨[], c, [], rfl, by simpa using Ne.symm hc, .inr rfl⟩
  | cons d text ih =>
    by_cases hd : d = separator
    · exact ⟨[], c, d :: text, rfl, by simpa using Ne.symm hc, .inl (by rw [hd]; rfl)⟩
    · obtain ⟨word, last, after, htext, hword, hafter⟩ := ih hd
      refine ⟨c :: word, last, after, by rw [htext, List.cons_append], ?_, hafter⟩
      rw [List.cons_append, List.mem_cons, not_or]
      exact ⟨Ne.symm hc, hword⟩

theorem tokens_dropWhile (h : text.dropWhile (· = separator) ≠ []) :
    tokens separator (n + 1) text = tokens separator (n + 1) (text.dropWhile (· = separator)) := by
  have hne : text ≠ [] := by
    rintro rfl
    exact h rfl
  simp only [tokens, List.dropWhile_idempotent]
  rw [if_neg hne, if_neg h, if_neg h]

/-- `strtok` asked for all the tokens answers the words, or gets stuck. -/
theorem tokens_eq_words (h : text.length ≤ n) :
    tokens separator n text = if Stuck separator text then none else some (words separator text) := by
  induction n generalizing text with
  | zero =>
    obtain rfl := List.length_eq_zero_iff.mp (Nat.le_zero.mp h)
    rw [if_neg not_stuck_nil, words_nil]
    rfl
  | succ n ih =>
    by_cases hne : text = []
    · rw [hne, tokens, if_pos rfl, if_neg not_stuck_nil, words_nil]
    cases hstart : text.dropWhile (· = separator) with
    | nil =>
      have hall : ∀ c ∈ text, c = separator := by
        simpa using List.dropWhile_eq_nil_iff.mp hstart
      rw [tokens, if_neg hne, hstart, if_pos rfl, if_pos (stuck_of_all hne hall)]
    | cons c rest =>
      have hc : c ≠ separator := by
        have hfirst := List.head?_dropWhile_not (· = separator) text
        rw [hstart] at hfirst
        simpa using hfirst
      obtain ⟨word, last, after, htext, hword, hafter⟩ := exists_word hc rest
      have hlast : last ≠ separator := by
        rintro rfl
        exact hword (List.mem_append_right _ List.mem_cons_self)
      have hparts : text.takeWhile (· = separator) ++ word ++ last :: after = text := by
        rw [List.append_assoc, ← htext, ← hstart, List.takeWhile_append_dropWhile]
      have htoken : c :: rest = word ++ [last] ++ after := by rw [htext]; simp
      rw [tokens_dropWhile (by simp [hstart]), ← words_dropWhile, hstart, htoken,
        tokens_token (by simp) hword hafter]
      have hlen : (after.drop 1).length ≤ n := by
        have hle := congrArg List.length hparts
        simp only [List.length_append, List.length_cons] at hle
        rw [List.length_drop]
        omega
      rw [ih hlen]
      have hstuck : Stuck separator text ↔ Stuck separator (after.drop 1) := by
        rw [← hparts, stuck_append hlast]
        rcases hafter with hafter | rfl
        · obtain ⟨tail, rfl⟩ := List.head?_eq_some_iff.mp hafter
          exact stuck_cons_iff hlast
        · exact iff_of_false (not_stuck_concat [] hlast) not_stuck_nil
      have hwords : words separator (word ++ [last] ++ after) =
          (word ++ [last]) :: words separator (after.drop 1) := by
        rcases hafter with hafter | rfl
        · obtain ⟨tail, rfl⟩ := List.head?_eq_some_iff.mp hafter
          rw [words_append_separator, words_single (by simp) hword]
          rfl
        · rw [List.append_nil, words_single (by simp) hword]
          simp
      rw [hwords]
      by_cases hs : Stuck separator text
      · rw [if_pos hs, if_pos (hstuck.mp hs)]
        rfl
      · rw [if_neg hs, if_neg fun hr => hs (hstuck.mpr hr)]
        rfl

/-! ## Tokens and what is left -/

/-- At most `n` tokens, and the text after them. -/
def splitTokens (separator : UInt8) : ℕ → List UInt8 → Option (List (List UInt8) × List UInt8)
  | 0, text => some ([], text)
  | n + 1, text =>
    if text = [] then some ([], [])
    else
      let rest := text.dropWhile (· = separator)
      if rest = [] then none
      else (splitTokens separator n ((rest.dropWhile (· ≠ separator)).drop 1)).map fun p =>
        (rest.takeWhile (· ≠ separator) :: p.1, p.2)

theorem splitTokens_eq (h : text.length ≤ n) :
    splitTokens separator n text = (tokens separator n text).map (·, []) := by
  induction n generalizing text with
  | zero =>
    obtain rfl := List.length_eq_zero_iff.mp (Nat.le_zero.mp h)
    rfl
  | succ n ih =>
    unfold splitTokens tokens
    dsimp only
    split
    · rfl
    · split
      · rfl
      · next hne hrest =>
        have hlen : (((text.dropWhile (· = separator)).dropWhile (· ≠ separator)).drop 1).length ≤
            n := by
          have hone := (List.dropWhile_suffix (l := text) (· = separator)).length_le
          have htwo := (List.dropWhile_suffix
            (l := text.dropWhile (· = separator)) (· ≠ separator)).length_le
          rw [List.length_drop]
          omega
        rw [ih hlen, Option.map_map, Option.map_map]
        rfl

/-! ## Words written one after another -/

theorem words_intercalate {ws : List (List UInt8)} (h : ∀ w ∈ ws, w ≠ [] ∧ separator ∉ w) :
    words separator ([separator].intercalate ws) = ws := by
  by_cases hws : ws = []
  · rw [hws]
    rfl
  · rw [words, List.splitOn_intercalate separator (fun w hw => (h w hw).2) hws,
      List.filter_eq_self.mpr fun w hw => by simpa using (h w hw).1]

theorem not_stuck_intercalate {ws : List (List UInt8)} (h : ∀ w ∈ ws, w ≠ [] ∧ separator ∉ w) :
    ¬ Stuck separator ([separator].intercalate ws) := by
  induction ws with
  | nil => exact not_stuck_nil
  | cons w ws ih =>
    obtain ⟨hne, hsep⟩ := h w List.mem_cons_self
    obtain ⟨init, last, rfl⟩ := (List.eq_nil_or_concat' w).resolve_left hne
    have hlast : last ≠ separator := by
      rintro rfl
      exact hsep (List.mem_append_right _ List.mem_cons_self)
    by_cases hws : ws = []
    · rw [hws, List.intercalate_singleton]
      exact not_stuck_concat _ hlast
    · rw [List.intercalate_cons_of_ne_nil hws, List.append_assoc, List.append_assoc,
        List.singleton_append, List.singleton_append, stuck_append hlast, stuck_cons_iff hlast]
      exact ih fun v hv => h v (List.mem_cons_of_mem _ hv)

end Words

end TpSo
