import Mathlib.Data.List.GetD
import Mathlib.Data.List.Nodup
import TpSo.Base.Overwrite
import TpSo.Osada.Format

/-!
# The bytes of the blocks

What the blocks of a chain hold, one block after another, and what one `fwrite` of data does to
it.
-/

namespace TpSo.Osada

def bytesEn (d : Disco) (posicion : ℕ) : List UInt8 :=
  (List.range 64).map fun k => d.datos (posicion + k)

@[simp] theorem length_bytesEn (d : Disco) (posicion : ℕ) : (bytesEn d posicion).length = 64 := by
  simp [bytesEn]

/-- The bytes of the blocks of a chain, one block after another. -/
def contenido (d : Disco) (xs : List ℕ) : List UInt8 :=
  xs.flatMap fun b => bytesEn d ((d.inicio + b) * 64)

theorem length_contenido (d : Disco) (xs : List ℕ) : (contenido d xs).length = 64 * xs.length := by
  induction xs with
  | nil => rfl
  | cons b xs ih =>
    simp only [contenido, List.flatMap_cons, List.length_append, length_bytesEn,
      List.length_cons] at ih ⊢
    omega

theorem contenido_append (d : Disco) (xs ys : List ℕ) :
    contenido d (xs ++ ys) = contenido d xs ++ contenido d ys := List.flatMap_append

theorem contenido_cons (d : Disco) (b : ℕ) (xs : List ℕ) :
    contenido d (b :: xs) = bytesEn d ((d.inicio + b) * 64) ++ contenido d xs :=
  List.flatMap_cons

section Contenido
variable {d d' : Disco} {b pos : ℕ} {bytes : List UInt8} {xs pre post : List ℕ}

theorem contenido_congr (hinicio : d'.inicio = d.inicio)
    (h : ∀ b ∈ xs, ∀ k, (d.inicio + b) * 64 ≤ k → k < (d.inicio + b) * 64 + 64 →
      d'.datos k = d.datos k) : contenido d' xs = contenido d xs := by
  induction xs with
  | nil => rfl
  | cons b xs ih =>
    have hb : bytesEn d' ((d'.inicio + b) * 64) = bytesEn d ((d.inicio + b) * 64) := by
      rw [hinicio]
      apply List.map_congr_left
      intro k hk
      have hk' := List.mem_range.mp hk
      exact h b List.mem_cons_self _ (by omega) (by omega)
    rw [contenido_cons, contenido_cons, hb, ih fun c hc => h c (List.mem_cons_of_mem b hc)]

theorem contenido_of_datos (hinicio : d'.inicio = d.inicio) (h : d'.datos = d.datos)
    (xs : List ℕ) : contenido d' xs = contenido d xs :=
  contenido_congr hinicio fun _ _ k _ _ => congrFun h k

theorem bytesEn_datos (d : Disco) (desde : ℕ) (h : pos + bytes.length ≤ 64) :
    bytesEn (d.aplicar (.datos (desde + pos) bytes)) desde =
      overwrite (bytesEn d desde) pos bytes := by
  have hlargo : pos + bytes.length ≤ (bytesEn d desde).length := by
    rw [length_bytesEn]
    exact h
  apply List.ext_getElem
  · rw [length_overwrite hlargo, length_bytesEn, length_bytesEn]
  · intro k hk _
    have hk64 : k < 64 := by simpa using hk
    simp only [bytesEn, List.getElem_map, List.getElem_range, Disco.aplicar, overwrite]
    rcases Nat.lt_or_ge k pos with hlt | hge
    · rw [if_neg (by omega), List.getElem_append_left (by simp; omega),
        List.getElem_append_left (by simp; omega)]
      simp
    rcases Nat.lt_or_ge k (pos + bytes.length) with hlt | hge'
    · rw [if_pos (by omega), List.getElem_append_left (by simp; omega),
        List.getElem_append_right (by simp; omega), List.getD_eq_getElem _ _ (by omega)]
      congr 1
      simp
      omega
    · rw [if_neg (by omega), List.getElem_append_right (by simp; omega)]
      simp
      congr 1
      omega

theorem contenido_datos (hnodup : (pre ++ b :: post).Nodup) (h : pos + bytes.length ≤ 64) :
    contenido (d.aplicar (.datos ((d.inicio + b) * 64 + pos) bytes)) (pre ++ b :: post) =
      overwrite (contenido d (pre ++ b :: post)) (pre.length * 64 + pos) bytes := by
  have hotro : ∀ xs : List ℕ, b ∉ xs →
      contenido (d.aplicar (.datos ((d.inicio + b) * 64 + pos) bytes)) xs = contenido d xs := by
    intro xs hb
    apply contenido_congr (aplicar_inicio d _)
    intro c hc k hlo hhi
    have hne : c ≠ b := fun he => hb (he ▸ hc)
    apply aplicar_datos_of_outside
    omega
  obtain ⟨_, hresto, hdistintos⟩ := List.nodup_append.mp hnodup
  have hpre : b ∉ pre := fun hb => hdistintos b hb b List.mem_cons_self rfl
  have hpost : b ∉ post := (List.nodup_cons.mp hresto).1
  have hlargo : pre.length * 64 = (contenido d pre).length := by
    rw [length_contenido]
    omega
  rw [contenido_append, contenido_append, contenido_cons, contenido_cons, aplicar_inicio,
    hotro pre hpre, hotro post hpost, bytesEn_datos d _ h, hlargo, overwrite_append_right,
    overwrite_append_left (by rw [length_bytesEn]; exact h)]

end Contenido

end TpSo.Osada
