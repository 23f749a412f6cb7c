import Mathlib.Algebra.BigOperators.Group.List.Basic
import TpSo.Base.Text

/-!
# `time`

Times are strings `h:m:s:ms`. `calcular` takes one time from another field by field, with nothing
borrowed from the field before. `sumar` adds two of them and carries, but a whole second that is
left in the milliseconds stays there.
-/

namespace TpSo.Rocket

def dosPuntos : UInt8 := 58

@[ext] structure Tiempo where
  horas : ℤ
  minutos : ℤ
  segundos : ℤ
  milisegundos : ℤ
  deriving DecidableEq, Repr

namespace Tiempo

def total (t : Tiempo) : ℤ :=
  3600000 * t.horas + 60000 * t.minutos + 1000 * t.segundos + t.milisegundos

/-- A time of day. -/
structure Valido (t : Tiempo) : Prop where
  horas : 0 ≤ t.horas ∧ t.horas < 24
  minutos : 0 ≤ t.minutos ∧ t.minutos < 60
  segundos : 0 ≤ t.segundos ∧ t.segundos < 60
  milisegundos : 0 ≤ t.milisegundos ∧ t.milisegundos < 1000

structure NoNegativo (t : Tiempo) : Prop where
  horas : 0 ≤ t.horas
  minutos : 0 ≤ t.minutos
  segundos : 0 ≤ t.segundos
  milisegundos : 0 ≤ t.milisegundos

/-- The hours of a duration have no limit. -/
structure Canonico (t : Tiempo) : Prop where
  minutos : 0 ≤ t.minutos ∧ t.minutos < 60
  segundos : 0 ≤ t.segundos ∧ t.segundos < 60
  milisegundos : 0 ≤ t.milisegundos ∧ t.milisegundos < 1000

structure DeInts (t : Tiempo) : Prop where
  horas : -2147483648 ≤ t.horas ∧ t.horas < 2147483648
  minutos : -2147483648 ≤ t.minutos ∧ t.minutos < 2147483648
  segundos : -2147483648 ≤ t.segundos ∧ t.segundos < 2147483648
  milisegundos : -2147483648 ≤ t.milisegundos ∧ t.milisegundos < 2147483648

instance : Zero Tiempo := ⟨⟨0, 0, 0, 0⟩⟩

/-- Field by field, with nothing carried. -/
instance : Add Tiempo :=
  ⟨fun t t' => ⟨t.horas + t'.horas, t.minutos + t'.minutos, t.segundos + t'.segundos,
    t.milisegundos + t'.milisegundos⟩⟩

@[simp] theorem zero_horas : (0 : Tiempo).horas = 0 := rfl
@[simp] theorem zero_minutos : (0 : Tiempo).minutos = 0 := rfl
@[simp] theorem zero_segundos : (0 : Tiempo).segundos = 0 := rfl
@[simp] theorem zero_milisegundos : (0 : Tiempo).milisegundos = 0 := rfl
@[simp] theorem add_horas (t t' : Tiempo) : (t + t').horas = t.horas + t'.horas := rfl
@[simp] theorem add_minutos (t t' : Tiempo) : (t + t').minutos = t.minutos + t'.minutos := rfl
@[simp] theorem add_segundos (t t' : Tiempo) : (t + t').segundos = t.segundos + t'.segundos := rfl
@[simp] theorem add_milisegundos (t t' : Tiempo) :
    (t + t').milisegundos = t.milisegundos + t'.milisegundos := rfl

instance : AddCommMonoid Tiempo where
  add_assoc t t' t'' := by ext <;> simp [Int.add_assoc]
  zero_add t := by ext <;> simp
  add_zero t := by ext <;> simp
  add_comm t t' := by ext <;> simp [Int.add_comm]
  nsmul := nsmulRec

theorem total_add (t t' : Tiempo) : (t + t').total = t.total + t'.total := by
  simp only [total, add_horas, add_minutos, add_segundos, add_milisegundos]
  omega

theorem NoNegativo.add {t t' : Tiempo} (h : t.NoNegativo) (h' : t'.NoNegativo) :
    (t + t').NoNegativo :=
  ⟨Int.add_nonneg h.horas h'.horas, Int.add_nonneg h.minutos h'.minutos,
    Int.add_nonneg h.segundos h'.segundos, Int.add_nonneg h.milisegundos h'.milisegundos⟩

/-- No field is too large for an `int`, with what the fields after it carry. -/
structure Cabe (t : Tiempo) : Prop where
  milisegundos : t.milisegundos < 2147483648
  segundos : 1000 * t.segundos + t.milisegundos < 1000 * 2147483648
  minutos : 60000 * t.minutos + 1000 * t.segundos + t.milisegundos < 60000 * 2147483648
  horas : t.total < 3600000 * 2147483648

end Tiempo

/-- `string_split(texto, ":")` and `atoi` of its first four parts: there is no `atoi` of a null
pointer. -/
def leer (texto : List UInt8) : Option Tiempo :=
  match tokens dosPuntos texto.length texto with
  | some (horas :: minutos :: segundos :: milisegundos :: _) =>
    some ⟨atoi horas, atoi minutos, atoi segundos, atoi milisegundos⟩
  | _ => none

/-- The four fields, each through `string_itoa`, with `":"` between them. -/
def escribir (t : Tiempo) : List UInt8 :=
  decimalOfInt t.horas ++ dosPuntos :: (decimalOfInt t.minutos ++ dosPuntos ::
    (decimalOfInt t.segundos ++ dosPuntos :: decimalOfInt t.milisegundos))

/-- A round of the loop of `calcular`. -/
def restar (base inicio fin : ℤ) : ℤ :=
  if i32 (fin - inicio) < 0 then i32 (fin - inicio) + base else i32 (fin - inicio)

def calcular (instanteInicio instanteFin : List UInt8) : Option (List UInt8) := do
  let inicio ← leer instanteInicio
  let fin ← leer instanteFin
  pure (escribir
    { horas := restar 24 inicio.horas fin.horas
      minutos := restar 60 inicio.minutos fin.minutos
      segundos := restar 60 inicio.segundos fin.segundos
      milisegundos := restar 1000 inicio.milisegundos fin.milisegundos })

/-- `while (total > limite)`, one more in the next field for every `base` taken from this one. -/
def llevarDesde (limite base : ℤ) : ℕ → ℤ → ℤ → ℤ × ℤ
  | 0, total, siguiente => (total, siguiente)
  | vueltas + 1, total, siguiente =>
    if limite < total then llevarDesde limite base vueltas (total - base) (i32 (siguiente + 1))
    else (total, siguiente)

def llevar (limite base total siguiente : ℤ) : ℤ × ℤ :=
  llevarDesde limite base total.toNat total siguiente

def totales (unTiempo otroTiempo : Tiempo) : Tiempo :=
  let horas := i32 (unTiempo.horas + otroTiempo.horas)
  let minutos := i32 (unTiempo.minutos + otroTiempo.minutos)
  let segundos := i32 (unTiempo.segundos + otroTiempo.segundos)
  let milisegundos := i32 (unTiempo.milisegundos + otroTiempo.milisegundos)
  let (milisegundos, segundos) := llevar 1000 1000 milisegundos segundos
  let (segundos, minutos) := llevar 59 60 segundos minutos
  let (minutos, horas) := llevar 59 60 minutos horas
  ⟨horas, minutos, segundos, milisegundos⟩

def sumar (unTiempo otroTiempo : List UInt8) : Option (List UInt8) := do
  let t ← leer unTiempo
  let t' ← leer otroTiempo
  pure (escribir (totales t t'))

/-! ## What is written is read back -/

theorem leer_escribir {t : Tiempo} (h : t.DeInts) : leer (escribir t) = some t := by
  have hne := decimalOfInt_ne_nil
  have hsep : ∀ x, dosPuntos ∉ decimalOfInt x :=
    fun x => not_mem_decimalOfInt (by decide) (by decide)
  obtain ⟨n, hn⟩ : ∃ n, (escribir t).length = n + 4 := by
    refine ⟨(escribir t).length - 4, ?_⟩
    have hlen : ∀ x, 0 < (decimalOfInt x).length := fun x => List.length_pos_iff.mpr (hne x)
    have hh := hlen t.horas
    have hm := hlen t.minutos
    have hs := hlen t.segundos
    have hms := hlen t.milisegundos
    simp only [escribir, List.length_append, List.length_cons]
    omega
  have hpartes : tokens dosPuntos (escribir t).length (escribir t) =
      some [decimalOfInt t.horas, decimalOfInt t.minutos, decimalOfInt t.segundos,
        decimalOfInt t.milisegundos] := by
    rw [hn, escribir, tokens_cons (hne _) (hsep _), tokens_cons (hne _) (hsep _),
      tokens_cons (hne _) (hsep _), tokens_last (hne _) (hsep _)]
    rfl
  rw [leer, hpartes]
  simp only [atoi_decimalOfInt h.horas.1 h.horas.2, atoi_decimalOfInt h.minutos.1 h.minutos.2,
    atoi_decimalOfInt h.segundos.1 h.segundos.2,
    atoi_decimalOfInt h.milisegundos.1 h.milisegundos.2]

/-! ## The time that has passed -/

theorem restar_de_rango {base inicio fin : ℤ} (hinicio : 0 ≤ inicio ∧ inicio < base)
    (hfin : 0 ≤ fin ∧ fin < base) (hbase : base ≤ 1000) :
    restar base inicio fin = if inicio ≤ fin then fin - inicio else fin - inicio + base := by
  unfold restar
  rw [i32_of_range (by omega) (by omega)]
  split <;> split <;> omega

theorem restar_deInt {base inicio fin : ℤ} (hinicio : 0 ≤ inicio ∧ inicio < base)
    (hfin : 0 ≤ fin ∧ fin < base) (hbase : base ≤ 1000) :
    -2147483648 ≤ restar base inicio fin ∧ restar base inicio fin < 2147483648 := by
  rw [restar_de_rango hinicio hfin hbase]
  split <;> omega

/-- The time that has passed between two times of day, modulo a day, is what `calcular` gives if and
only if no field but the hours is smaller in the second time than in the first. -/
theorem calcular_sin_pedir {instanteInicio instanteFin : List UInt8} {inicio fin : Tiempo}
    (hinicio : leer instanteInicio = some inicio) (hfin : leer instanteFin = some fin)
    (hi : inicio.Valido) (hf : fin.Valido) :
    ∃ texto d, calcular instanteInicio instanteFin = some texto ∧ leer texto = some d ∧
      (d.Valido ∧ d.total = (fin.total - inicio.total) % 86400000 ↔
        inicio.minutos ≤ fin.minutos ∧ inicio.segundos ≤ fin.segundos ∧
          inicio.milisegundos ≤ fin.milisegundos) := by
  have hcalcular : calcular instanteInicio instanteFin = some (escribir
      { horas := restar 24 inicio.horas fin.horas
        minutos := restar 60 inicio.minutos fin.minutos
        segundos := restar 60 inicio.segundos fin.segundos
        milisegundos := restar 1000 inicio.milisegundos fin.milisegundos }) := by
    rw [calcular, hinicio, hfin]
    rfl
  refine ⟨_, _, hcalcular, leer_escribir ?_, ?_⟩
  · exact ⟨restar_deInt hi.horas hf.horas (by decide), restar_deInt hi.minutos hf.minutos (by decide),
      restar_deInt hi.segundos hf.segundos (by decide),
      restar_deInt hi.milisegundos hf.milisegundos (by decide)⟩
  · obtain ⟨hih, him, his, hims⟩ := hi
    obtain ⟨hfh, hfm, hfs, hfms⟩ := hf
    rw [restar_de_rango hih hfh (by decide), restar_de_rango him hfm (by decide),
      restar_de_rango his hfs (by decide), restar_de_rango hims hfms (by decide)]
    constructor
    · rintro ⟨-, htotal⟩
      simp only [Tiempo.total] at htotal
      -- every field that is smaller adds one of the units before it
      by_contra hpide
      split at htotal <;> split at htotal <;> split at htotal <;> split at htotal <;> omega
    · rintro ⟨hm, hs, hms⟩
      rw [if_pos hm, if_pos hs, if_pos hms]
      refine ⟨⟨?_, ?_, ?_, ?_⟩, ?_⟩
      · dsimp only
        split <;> omega
      · dsimp only
        omega
      · dsimp only
        omega
      · dsimp only
        omega
      · simp only [Tiempo.total]
        split <;> omega

def diezYMedia : List UInt8 := [49, 48, 58, 51, 48, 58, 48, 48, 58, 48]

def once : List UInt8 := [49, 49, 58, 48, 48, 58, 48, 48, 58, 48]

theorem calcular_sin_pedir_once :
    ∃ texto d, calcular diezYMedia once = some texto ∧ leer texto = some d ∧
      (d.Valido ∧ d.total = (Tiempo.total ⟨11, 0, 0, 0⟩ - Tiempo.total ⟨10, 30, 0, 0⟩) % 86400000 ↔
        (30 : ℤ) ≤ 0 ∧ (0 : ℤ) ≤ 0 ∧ (0 : ℤ) ≤ 0) :=
  @calcular_sin_pedir diezYMedia once ⟨10, 30, 0, 0⟩ ⟨11, 0, 0, 0⟩ (by decide +kernel)
    (by decide +kernel) ⟨by decide, by decide, by decide, by decide⟩
    ⟨by decide, by decide, by decide, by decide⟩

/-- Half an hour has passed, and `calcular` gives an hour and a half. -/
theorem calcular_no_pide : ∃ inicio fin, leer diezYMedia = some inicio ∧ leer once = some fin ∧
    inicio.Valido ∧ fin.Valido ∧ (fin.total - inicio.total) % 86400000 = 1800000 ∧
    ∃ texto d, calcular diezYMedia once = some texto ∧ leer texto = some d ∧
      d.total = 5400000 := by
  refine ⟨⟨10, 30, 0, 0⟩, ⟨11, 0, 0, 0⟩, by decide +kernel, by decide +kernel, ?_, ?_, by decide,
    [49, 58, 51, 48, 58, 48, 58, 48], ⟨1, 30, 0, 0⟩, by decide +kernel, by decide +kernel, by decide⟩
  · exact ⟨by decide, by decide, by decide, by decide⟩
  · exact ⟨by decide, by decide, by decide, by decide⟩

/-! ## Sums of times -/

theorem i32_add (x y : ℤ) : i32 (i32 x + y) = i32 (x + y) := by
  unfold i32
  split <;> split <;> split <;> omega

theorem llevarDesde_spec {limite base : ℤ} (hbase : 0 < base) (hlimite : 0 ≤ limite) :
    ∀ (vueltas : ℕ) (total siguiente : ℤ), total ≤ vueltas →
      ∃ k : ℕ, llevarDesde limite base vueltas total (i32 siguiente) =
          (total - base * k, i32 (siguiente + k)) ∧
        total - base * k ≤ limite ∧ (k = 0 ∨ limite < total - base * k + base) := by
  intro vueltas
  induction vueltas with
  | zero =>
    intro total siguiente h
    exact ⟨0, by simp [llevarDesde], by simpa using h.trans hlimite, .inl rfl⟩
  | succ vueltas ih =>
    intro total siguiente h
    by_cases hsigue : limite < total
    · obtain ⟨k, hk, hle, hlast⟩ := ih (total - base) (siguiente + 1) (by omega)
      have hmul : base * ((k + 1 : ℕ) : ℤ) = base * k + base := by
        push_cast
        ring
      refine ⟨k + 1, ?_, by omega, .inr ?_⟩
      · rw [llevarDesde, if_pos hsigue, i32_add, hk, hmul]
        congr 1
        · omega
        · congr 1
          push_cast
          omega
      · rcases hlast with rfl | hlast
        · simp only [Nat.cast_zero, Int.mul_zero] at hmul
          omega
        · omega
    · refine ⟨0, ?_, by simpa using hsigue, .inl rfl⟩
      rw [llevarDesde, if_neg hsigue]
      simp

/-- The loop ends with `total` at most `limite`, and takes no more than it has to. -/
theorem llevar_spec {limite base : ℤ} (hbase : 0 < base) (hlimite : 0 ≤ limite)
    (total siguiente : ℤ) : ∃ k : ℕ, llevar limite base total (i32 siguiente) =
      (total - base * k, i32 (siguiente + k)) ∧
      total - base * k ≤ limite ∧ (k = 0 ∨ limite < total - base * k + base) :=
  llevarDesde_spec hbase hlimite total.toNat total siguiente (Int.self_le_toNat total)

theorem totales_spec (t t' : Tiempo) : ∃ k₁ k₂ k₃ : ℕ,
    (totales t t').milisegundos = i32 (t + t').milisegundos - 1000 * k₁ ∧
    (totales t t').milisegundos ≤ 1000 ∧ (k₁ = 0 ∨ 0 < (totales t t').milisegundos) ∧
    (totales t t').segundos = i32 ((t + t').segundos + k₁) - 60 * k₂ ∧
    (totales t t').segundos < 60 ∧ (k₂ = 0 ∨ 0 ≤ (totales t t').segundos) ∧
    (totales t t').minutos = i32 ((t + t').minutos + k₂) - 60 * k₃ ∧
    (totales t t').minutos < 60 ∧ (k₃ = 0 ∨ 0 ≤ (totales t t').minutos) ∧
    (totales t t').horas = i32 ((t + t').horas + k₃) := by
  obtain ⟨k₁, h₁, hle₁, hlast₁⟩ := @llevar_spec 1000 1000 (by decide) (by decide)
    (i32 (t + t').milisegundos) (t + t').segundos
  obtain ⟨k₂, h₂, hle₂, hlast₂⟩ := @llevar_spec 59 60 (by decide) (by decide)
    (i32 ((t + t').segundos + k₁)) (t + t').minutos
  obtain ⟨k₃, h₃, hle₃, hlast₃⟩ := @llevar_spec 59 60 (by decide) (by decide)
    (i32 ((t + t').minutos + k₂)) (t + t').horas
  have htotales : totales t t' = ⟨i32 ((t + t').horas + k₃), i32 ((t + t').minutos + k₂) - 60 * k₃,
      i32 ((t + t').segundos + k₁) - 60 * k₂, i32 (t + t').milisegundos - 1000 * k₁⟩ := by
    rw [Tiempo.add_milisegundos, Tiempo.add_segundos] at h₁
    rw [Tiempo.add_segundos, Tiempo.add_minutos] at h₂
    rw [Tiempo.add_minutos, Tiempo.add_horas] at h₃
    unfold totales
    dsimp only
    rw [h₁]
    dsimp only
    rw [h₂]
    dsimp only
    rw [h₃]
    rfl
  rw [htotales]
  refine ⟨k₁, k₂, k₃, rfl, hle₁, ?_, rfl, ?_, ?_, rfl, ?_, ?_, rfl⟩ <;> dsimp only <;> omega

theorem totales_deInts (t t' : Tiempo) : (totales t t').DeInts := by
  obtain ⟨k₁, k₂, k₃, h₁, hle₁, hlast₁, h₂, hle₂, hlast₂, h₃, hle₃, hlast₃, h₄⟩ := totales_spec t t'
  have hr₁ := i32_range (t + t').milisegundos
  have hr₂ := i32_range ((t + t').segundos + k₁)
  have hr₃ := i32_range ((t + t').minutos + k₂)
  refine ⟨?_, ?_, ?_, ?_⟩
  · rw [h₄]
    exact i32_range _
  · omega
  · omega
  · omega

theorem leer_sumar {unTiempo otroTiempo : List UInt8} {t t' : Tiempo}
    (h : leer unTiempo = some t) (h' : leer otroTiempo = some t') :
    sumar unTiempo otroTiempo = some (escribir (totales t t')) ∧
      leer (escribir (totales t t')) = some (totales t t') := by
  refine ⟨?_, leer_escribir (totales_deInts t t')⟩
  rw [sumar, h, h']
  rfl

/-- What is too large comes back lower, and never higher. -/
theorem exists_i32_eq {x : ℤ} (h : 0 ≤ x) : ∃ q : ℕ, i32 x = x - 4294967296 * q := by
  refine ⟨((x - i32 x) / 4294967296).toNat, ?_⟩
  unfold i32
  split <;> omega

/-- The sum is right, and in canonical form, if and only if it fits and the milliseconds do not add
up to whole seconds. -/
theorem totales_canonico_iff {t t' : Tiempo} (h : t.NoNegativo) (h' : t'.NoNegativo) :
    ((totales t t').total = t.total + t'.total ∧ (totales t t').Canonico) ↔
      (t + t').Cabe ∧ ((t + t').milisegundos = 0 ∨ (t + t').milisegundos % 1000 ≠ 0) := by
  obtain ⟨k₁, k₂, k₃, h₁, hle₁, hlast₁, h₂, hle₂, hlast₂, h₃, hle₃, hlast₃, h₄⟩ := totales_spec t t'
  obtain ⟨hh, hm, hs, hms⟩ := h.add h'
  obtain ⟨q₁, hq₁⟩ := exists_i32_eq hms
  obtain ⟨q₂, hq₂⟩ := exists_i32_eq (x := (t + t').segundos + k₁) (by omega)
  obtain ⟨q₃, hq₃⟩ := exists_i32_eq (x := (t + t').minutos + k₂) (by omega)
  obtain ⟨q₄, hq₄⟩ := exists_i32_eq (x := (t + t').horas + k₃) (by omega)
  have hr₁ := i32_range (t + t').milisegundos
  have hr₂ := i32_range ((t + t').segundos + k₁)
  have hr₃ := i32_range ((t + t').minutos + k₂)
  have hr₄ := i32_range ((t + t').horas + k₃)
  rw [← Tiempo.total_add]
  constructor
  · rintro ⟨htotal, ⟨hcm, hcs, hcms⟩⟩
    simp only [Tiempo.total] at htotal
    -- everything that is lost is lost for good
    have hcero : q₁ = 0 ∧ q₂ = 0 ∧ q₃ = 0 ∧ q₄ = 0 := by omega
    obtain ⟨rfl, rfl, rfl, rfl⟩ := hcero
    refine ⟨⟨by omega, by omega, by omega, ?_⟩, by omega⟩
    simp only [Tiempo.total]
    omega
  · rintro ⟨⟨hcabe₁, hcabe₂, hcabe₃, hcabe₄⟩, hresto⟩
    simp only [Tiempo.total] at hcabe₄
    have hcero₁ : q₁ = 0 := by omega
    have hcero₂ : q₂ = 0 := by omega
    have hcero₃ : q₃ = 0 := by omega
    have hcero₄ : q₄ = 0 := by omega
    subst hcero₁ hcero₂ hcero₃ hcero₄
    refine ⟨?_, ⟨by omega, by omega, by omega⟩⟩
    simp only [Tiempo.total]
    omega

/-! ## Many sums, in any order -/

namespace Tiempo

/-- What `sumar` leaves: a whole second may stay in the milliseconds. -/
structure Llevado (t : Tiempo) : Prop where
  minutos : 0 ≤ t.minutos ∧ t.minutos < 60
  segundos : 0 ≤ t.segundos ∧ t.segundos < 60
  milisegundos : 0 ≤ t.milisegundos ∧ t.milisegundos ≤ 1000

/-- The same duration with no more in the lower fields, and with milliseconds if it had some. -/
structure Rebaja (t t' : Tiempo) : Prop where
  noNegativo : t'.NoNegativo
  total : t'.total = t.total
  milisegundos : t'.milisegundos ≤ t.milisegundos
  quedan : t'.milisegundos = 0 ↔ t.milisegundos = 0
  segundos : 1000 * t'.segundos + t'.milisegundos ≤ 1000 * t.segundos + t.milisegundos
  minutos : 60000 * t'.minutos + 1000 * t'.segundos + t'.milisegundos ≤
    60000 * t.minutos + 1000 * t.segundos + t.milisegundos

theorem Rebaja.refl {t : Tiempo} (h : t.NoNegativo) : Rebaja t t :=
  ⟨h, rfl, Int.le_refl _, Iff.rfl, Int.le_refl _, Int.le_refl _⟩

theorem Rebaja.trans {t t' t'' : Tiempo} (h : Rebaja t t') (h' : Rebaja t' t'') : Rebaja t t'' :=
  ⟨h'.noNegativo, h'.total.trans h.total, h'.milisegundos.trans h.milisegundos,
    h'.quedan.trans h.quedan, h'.segundos.trans h.segundos, h'.minutos.trans h.minutos⟩

theorem Rebaja.add {t t' u u' : Tiempo} (h : Rebaja t t') (h' : Rebaja u u') :
    Rebaja (t + u) (t' + u') := by
  obtain ⟨hn, htotal, hms, hq, hs, hm⟩ := h
  obtain ⟨hn', htotal', hms', hq', hs', hm'⟩ := h'
  have hpos := hn.milisegundos
  have hpos' := hn'.milisegundos
  refine ⟨hn.add hn', ?_, ?_, ?_, ?_, ?_⟩
  · rw [total_add, total_add, htotal, htotal']
  all_goals
    simp only [add_milisegundos, add_segundos, add_minutos]
    omega

theorem Cabe.rebaja {t t' : Tiempo} (h : t.Cabe) (hr : Rebaja t t') : t'.Cabe :=
  ⟨hr.milisegundos.trans_lt h.milisegundos, hr.segundos.trans_lt h.segundos,
    hr.minutos.trans_lt h.minutos, hr.total.trans_lt h.horas⟩

theorem Cabe.left {t t' : Tiempo} (h : (t + t').Cabe) (h' : t'.NoNegativo) : t.Cabe := by
  obtain ⟨hms, hs, hm, hh⟩ := h
  obtain ⟨hh', hm', hs', hms'⟩ := h'
  rw [total_add] at hh
  simp only [add_milisegundos, add_segundos, add_minutos] at hms hs hm
  refine ⟨by omega, by omega, by omega, ?_⟩
  simp only [total] at hh ⊢
  omega

/-- Only one such string stands for a duration. -/
theorem Rebaja.unico {t u u' : Tiempo} (h : Rebaja t u) (h' : Rebaja t u') (hu : u.Llevado)
    (hu' : u'.Llevado) : u = u' := by
  have htotal := h.total.trans h'.total.symm
  have hq := h.quedan.trans h'.quedan.symm
  obtain ⟨hm, hs, hms⟩ := hu
  obtain ⟨hm', hs', hms'⟩ := hu'
  simp only [Tiempo.total] at htotal
  ext <;> omega

end Tiempo

theorem totales_llevado {t t' : Tiempo} (h : t.NoNegativo) (h' : t'.NoNegativo)
    (hcabe : (t + t').Cabe) :
    Tiempo.Rebaja (t + t') (totales t t') ∧ (totales t t').Llevado := by
  obtain ⟨k₁, k₂, k₃, h₁, hle₁, hlast₁, h₂, hle₂, hlast₂, h₃, hle₃, hlast₃, h₄⟩ := totales_spec t t'
  obtain ⟨hh, hm, hs, hms⟩ := h.add h'
  obtain ⟨hcabe₁, hcabe₂, hcabe₃, hcabe₄⟩ := hcabe
  simp only [Tiempo.total] at hcabe₄
  rw [i32_of_range (by omega) hcabe₁] at h₁
  rw [i32_of_range (by omega) (by omega)] at h₂
  rw [i32_of_range (by omega) (by omega)] at h₃
  rw [i32_of_range (by omega) (by omega)] at h₄
  refine ⟨⟨⟨by omega, by omega, by omega, by omega⟩, ?_, by omega, by omega, by omega, by omega⟩,
    ⟨by omega, by omega, by omega⟩⟩
  simp only [Tiempo.total]
  omega

/-- Times that are added up. -/
inductive Acumulado where
  | tiempo (texto : List UInt8)
  | sumar (uno otro : Acumulado)

namespace Acumulado

def tiempos : Acumulado → List (List UInt8)
  | tiempo texto => [texto]
  | sumar uno otro => uno.tiempos ++ otro.tiempos

def evaluar : Acumulado → Option (List UInt8)
  | tiempo texto => some texto
  | sumar uno otro => do
    let t ← uno.evaluar
    let t' ← otro.evaluar
    Rocket.sumar t t'

theorem length_tiempos_pos (a : Acumulado) : 0 < a.tiempos.length := by
  induction a with
  | tiempo _ => exact Nat.one_pos
  | sumar uno otro ih _ =>
    rw [tiempos, List.length_append]
    omega

end Acumulado

def duracion (textos : List (List UInt8)) : Tiempo :=
  (textos.map fun texto => (leer texto).getD 0).sum

def Duraciones (textos : List (List UInt8)) : Prop :=
  ∀ texto ∈ textos, ∃ t, leer texto = some t ∧ t.NoNegativo

theorem duracion_append (textos textos' : List (List UInt8)) :
    duracion (textos ++ textos') = duracion textos + duracion textos' := by
  rw [duracion, List.map_append, List.sum_append]
  rfl

theorem Duraciones.noNegativo {textos : List (List UInt8)} (h : Duraciones textos) :
    (duracion textos).NoNegativo := by
  induction textos with
  | nil => exact ⟨Int.le_refl _, Int.le_refl _, Int.le_refl _, Int.le_refl _⟩
  | cons texto textos ih =>
    obtain ⟨t, ht, hpos⟩ := h texto List.mem_cons_self
    have hsum : duracion (texto :: textos) = t + duracion textos := by
      rw [duracion, List.map_cons, List.sum_cons, ht]
      rfl
    rw [hsum]
    exact hpos.add (ih fun s hs => h s (List.mem_cons_of_mem _ hs))

theorem Acumulado.evaluar_spec {a : Acumulado} (h : Duraciones a.tiempos)
    (hcabe : (duracion a.tiempos).Cabe) :
    ∃ texto t, a.evaluar = some texto ∧ leer texto = some t ∧
      Tiempo.Rebaja (duracion a.tiempos) t ∧
      (2 ≤ a.tiempos.length → texto = escribir t ∧ t.Llevado) := by
  induction a with
  | tiempo texto =>
    obtain ⟨t, ht, hpos⟩ := h texto List.mem_cons_self
    refine ⟨texto, t, rfl, ht, ?_, fun hlen => absurd hlen (by simp [tiempos])⟩
    have hsum : duracion [texto] = t := by simp [duracion, ht]
    rw [tiempos, hsum]
    exact Tiempo.Rebaja.refl hpos
  | sumar uno otro ih ih' =>
    rw [tiempos, duracion_append] at hcabe
    have huno : Duraciones uno.tiempos := fun s hs => h s (List.mem_append_left _ hs)
    have hotro : Duraciones otro.tiempos := fun s hs => h s (List.mem_append_right _ hs)
    obtain ⟨s, t, hs, ht, hr, -⟩ := ih huno (hcabe.left hotro.noNegativo)
    obtain ⟨s', t', hs', ht', hr', -⟩ :=
      ih' hotro (Tiempo.Cabe.left (by rwa [add_comm] at hcabe) huno.noNegativo)
    have hadd := hr.add hr'
    obtain ⟨hreb, hllevado⟩ :=
      totales_llevado hr.noNegativo hr'.noNegativo (hcabe.rebaja hadd)
    obtain ⟨hsumar, hleer⟩ := leer_sumar ht ht'
    refine ⟨_, _, ?_, hleer, ?_, fun _ => ⟨rfl, hllevado⟩⟩
    · rw [evaluar, hs, hs']
      exact hsumar
    · rw [tiempos, duracion_append]
      exact hadd.trans hreb

/-- The order and the grouping of the sums are of no matter. -/
theorem Acumulado.evaluar_perm {a a' : Acumulado} (hperm : a.tiempos.Perm a'.tiempos)
    (h : Duraciones a.tiempos) (hcabe : (duracion a.tiempos).Cabe) :
    ∃ texto, a.evaluar = some texto ∧ a'.evaluar = some texto := by
  have h' : Duraciones a'.tiempos := fun s hs => h s (hperm.mem_iff.mpr hs)
  have hsum : duracion a'.tiempos = duracion a.tiempos := ((hperm.map _).sum_eq).symm
  obtain ⟨s, t, hs, ht, hr, hlen⟩ := a.evaluar_spec h hcabe
  obtain ⟨s', t', hs', ht', hr', hlen'⟩ := a'.evaluar_spec h' (by rwa [hsum])
  refine ⟨s, hs, ?_⟩
  rw [hs']
  by_cases hdos : 2 ≤ a.tiempos.length
  · obtain ⟨rfl, hu⟩ := hlen hdos
    obtain ⟨rfl, hu'⟩ := hlen' (by rwa [← hperm.length_eq])
    rw [hsum] at hr'
    rw [hr.unico hr' hu hu']
  · -- with nothing to add up, both are the one string
    cases a with
    | sumar uno otro =>
      have huno := uno.length_tiempos_pos
      have hotro := otro.length_tiempos_pos
      rw [tiempos, List.length_append] at hdos
      omega
    | tiempo texto =>
      cases a' with
      | sumar uno otro =>
        have huno := uno.length_tiempos_pos
        have hotro := otro.length_tiempos_pos
        have hlength := hperm.length_eq
        rw [tiempos, tiempos, List.length_append, List.length_singleton] at hlength
        omega
      | tiempo texto' =>
        obtain rfl := List.singleton_perm_singleton.mp hperm
        exact hs'.symm.trans hs

/-- `sumar` keeps the total and gives a canonical duration if and only if the sum fits and the
milliseconds do not add up to whole seconds; many sums give one string, in whatever order and
grouping. -/
theorem sumar_segundos_enteros {unTiempo otroTiempo : List UInt8} {t t' : Tiempo}
    (h : leer unTiempo = some t) (h' : leer otroTiempo = some t') (hpos : t.NoNegativo)
    (hpos' : t'.NoNegativo) :
    (∃ texto c, sumar unTiempo otroTiempo = some texto ∧ leer texto = some c ∧
      (c.total = t.total + t'.total ∧ c.Canonico ↔
        (t + t').Cabe ∧ ((t + t').milisegundos = 0 ∨ (t + t').milisegundos % 1000 ≠ 0))) ∧
    ∀ a a' : Acumulado, a.tiempos.Perm a'.tiempos → Duraciones a.tiempos →
      (duracion a.tiempos).Cabe → ∃ texto, a.evaluar = some texto ∧ a'.evaluar = some texto := by
  constructor
  · obtain ⟨hsumar, hleer⟩ := leer_sumar h h'
    exact ⟨_, _, hsumar, hleer, totales_canonico_iff hpos hpos'⟩
  · intro a a' hperm hdur hcabe
    exact Acumulado.evaluar_perm hperm hdur hcabe

def medioSegundo : List UInt8 := [48, 58, 48, 58, 48, 58, 53, 48, 48]

theorem leer_medioSegundo : leer medioSegundo = some ⟨0, 0, 0, 500⟩ := by decide +kernel

theorem noNegativo_medioSegundo : Tiempo.NoNegativo ⟨0, 0, 0, 500⟩ :=
  ⟨by decide, by decide, by decide, by decide⟩

theorem sumar_segundos_enteros_medio :
    (∃ texto c, sumar medioSegundo medioSegundo = some texto ∧ leer texto = some c ∧
      (c.total = 500 + 500 ∧ c.Canonico ↔
        (⟨0, 0, 0, 500⟩ + ⟨0, 0, 0, 500⟩ : Tiempo).Cabe ∧
          (((⟨0, 0, 0, 500⟩ + ⟨0, 0, 0, 500⟩ : Tiempo)).milisegundos = 0 ∨
            ((⟨0, 0, 0, 500⟩ + ⟨0, 0, 0, 500⟩ : Tiempo)).milisegundos % 1000 ≠ 0))) ∧
    ∃ texto,
      (Acumulado.sumar (.tiempo medioSegundo) (.tiempo diezYMedia)).evaluar = some texto ∧
      (Acumulado.sumar (.tiempo diezYMedia) (.tiempo medioSegundo)).evaluar = some texto := by
  have hmedio := sumar_segundos_enteros leer_medioSegundo leer_medioSegundo
    noNegativo_medioSegundo noNegativo_medioSegundo
  constructor
  · exact hmedio.1
  · have hleer : leer diezYMedia = some ⟨10, 30, 0, 0⟩ := by decide +kernel
    apply hmedio.2 (.sumar (.tiempo medioSegundo) (.tiempo diezYMedia))
      (.sumar (.tiempo diezYMedia) (.tiempo medioSegundo)) (List.Perm.swap _ _ [])
    · intro texto htexto
      rcases List.mem_cons.mp htexto with rfl | htexto
      · exact ⟨_, leer_medioSegundo, noNegativo_medioSegundo⟩
      · obtain rfl := List.mem_singleton.mp htexto
        exact ⟨_, hleer, ⟨by decide, by decide, by decide, by decide⟩⟩
    · have hsum : duracion [medioSegundo, diezYMedia] = ⟨10, 30, 0, 500⟩ := by
        rw [duracion, List.map_cons, List.map_singleton, leer_medioSegundo, hleer]
        rfl
      change (duracion [medioSegundo, diezYMedia]).Cabe
      rw [hsum]
      exact ⟨by decide, by decide, by decide, by decide⟩

/-- Two half seconds are a thousand milliseconds. -/
theorem sumar_no_canonico : leer medioSegundo = some ⟨0, 0, 0, 500⟩ ∧
    Tiempo.NoNegativo ⟨0, 0, 0, 500⟩ ∧ ∃ texto c, sumar medioSegundo medioSegundo = some texto ∧
      leer texto = some c ∧ ¬ c.Canonico := by
  refine ⟨leer_medioSegundo, noNegativo_medioSegundo, [48, 58, 48, 58, 48, 58, 49, 48, 48, 48],
    ⟨0, 0, 0, 1000⟩, by decide +kernel, by decide +kernel, ?_⟩
  intro h
  exact absurd h.milisegundos.2 (by decide)

end TpSo.Rocket
