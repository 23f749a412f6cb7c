import Mathlib.Algebra.BigOperators.Intervals
import Mathlib.Algebra.Order.BigOperators.Group.Finset
import TpSo.Osada.Format

/-!
# The bitmap

Bit `k` of the bitmap is block `k` of the disk, first bit of a byte first. The free space is
counted over the whole bitmap and a free block is its first zero bit, also when that bit
lies past the last block of the disk.
-/

namespace TpSo.Osada

/-- `(punteroBitmap[i] >> (7 - pos)) % 2` at `i = k / 8`, `pos = k % 8`. -/
def bit (bitmap : ℕ → UInt8) (k : ℕ) : Bool :=
  ((bitmap (k / 8)).toNat >>> (7 - k % 8)) % 2 == 1

def contarBits : ℕ → ℕ → ℕ
  | 0, _ => 0
  | n + 1, c => if c = 0 then 0 else (if c % 2 = 1 then 1 else 0) + contarBits n (c >>> 1)

def bitsEnChar (c : UInt8) : ℕ := contarBits 8 c.toNat

def tamanioBitMapEnBytes (h : OsadaHeader) : ℕ := u32 (h.bitmapBlocks * 64)

def obtenerBloquesLibres (d : Disco) : ℕ :=
  u32 (d.header.fsBlocks -
    ((List.range (tamanioBitMapEnBytes d.header)).map fun i => bitsEnChar (d.bitmap i)).sum)

/-- `byte | factor` or `byte & ~factor` with `factor = 128 >> numeroBit`. -/
def conBit (byte : UInt8) (numeroBit : ℕ) (ocupado : Bool) : UInt8 :=
  let factor : UInt8 := 128 >>> numeroBit.toUInt8
  if ocupado then byte ||| factor else byte &&& ~~~factor

def Pokedex.marcarBit (s : Pokedex) (k : ℕ) (ocupado : Bool) : Pokedex :=
  s.escribir (.bitmap (k / 8) (conBit (s.disco.bitmap (k / 8)) (k - k / 8 * 8) ocupado))

def editarBloqueEnBitmap (nBloque : ℕ) (ocupado : Bool) : Op Pokedex ℤ := fun s =>
  (some 0, s.marcarBit (u32 (nBloque + s.disco.inicio)) ocupado)

/-- The two nested loops visit the bits in order. -/
def primerBitLibre (d : Disco) : Option ℕ :=
  (List.range ((i32 (tamanioBitMapEnBytes d.header)).toNat * 8)).find? fun k => !bit d.bitmap k

def obtenerPrimerBloqueLibre : Op Pokedex ℤ := do
  let d ← Op.get Pokedex.disco
  match primerBitLibre d with
  | none => pure (-1)
  | some resultado =>
    let _ ← editarBloqueEnBitmap (u32 (resultado - d.inicio)) true
    pure (i32 (resultado - d.inicio))

theorem bit_eq_testBit (bitmap : ℕ → UInt8) (k : ℕ) :
    bit bitmap k = (bitmap (k / 8)).toNat.testBit (7 - k % 8) := by
  unfold bit
  rw [Nat.testBit_eq_decide_div_mod_eq, Nat.shiftRight_eq_div_pow]
  rfl

theorem factor_testBit : ∀ i < 8, ∀ j < 8,
    ((128 : UInt8) >>> (Nat.toUInt8 i)).toNat.testBit (7 - j) = decide (i = j) ∧
    (~~~((128 : UInt8) >>> (Nat.toUInt8 i))).toNat.testBit (7 - j) = decide (i ≠ j) := by
  decide

theorem conBit_testBit (byte : UInt8) {i j : ℕ} (hi : i < 8) (hj : j < 8) (v : Bool) :
    (conBit byte i v).toNat.testBit (7 - j) =
      if j = i then v else byte.toNat.testBit (7 - j) := by
  obtain ⟨hor, hand⟩ := factor_testBit i hi j hj
  have hij : decide (i = j) = decide (j = i) := by
    simp only [eq_comm]
  cases v with
  | true =>
    simp only [conBit, if_true, UInt8.toNat_or, Nat.testBit_or, hor, hij]
    by_cases h : j = i <;> simp [h]
  | false =>
    simp only [conBit, Bool.false_eq_true, if_false, UInt8.toNat_and, Nat.testBit_and, hand]
    by_cases h : j = i
    · subst h; simp
    · simp [h, Ne.symm h]

theorem bit_update (bitmap : ℕ → UInt8) (k : ℕ) (v : Bool) (j : ℕ) :
    bit (Function.update bitmap (k / 8) (conBit (bitmap (k / 8)) (k - k / 8 * 8) v)) j =
      if j = k then v else bit bitmap j := by
  have hrem : k - k / 8 * 8 = k % 8 := by omega
  rw [hrem, bit_eq_testBit, bit_eq_testBit]
  by_cases hjk : j / 8 = k / 8
  · rw [hjk, Function.update_self, conBit_testBit _ (by omega) (by omega)]
    by_cases he : j = k
    · simp [he]
    · have hne : j % 8 ≠ k % 8 := by omega
      simp [he, hne]
  · have hne : j ≠ k := fun he => hjk (by rw [he])
    rw [Function.update_of_ne hjk, if_neg hne]

theorem bit_marcarBit (s : Pokedex) {k : ℕ} (hk : k < s.disco.header.bitmapBlocks * 64 * 8)
    (v : Bool) (j : ℕ) :
    bit (s.marcarBit k v).disco.bitmap j = if j = k then v else bit s.disco.bitmap j := by
  have hbyte : k / 8 < s.disco.header.bitmapBlocks * 64 := by omega
  simp only [Pokedex.marcarBit, Pokedex.escribir_disco, Disco.aplicar, hbyte, if_true]
  exact bit_update s.disco.bitmap k v j

@[simp] theorem marcarBit_header (s : Pokedex) (k : ℕ) (v : Bool) :
    (s.marcarBit k v).disco.header = s.disco.header := rfl

@[simp] theorem marcarBit_inicio (s : Pokedex) (k : ℕ) (v : Bool) :
    (s.marcarBit k v).disco.inicio = s.disco.inicio := rfl

@[simp] theorem marcarBit_archivos (s : Pokedex) (k : ℕ) (v : Bool) :
    (s.marcarBit k v).disco.archivos = s.disco.archivos := rfl

@[simp] theorem marcarBit_asignaciones (s : Pokedex) (k : ℕ) (v : Bool) :
    (s.marcarBit k v).disco.asignaciones = s.disco.asignaciones := rfl

@[simp] theorem marcarBit_datos (s : Pokedex) (k : ℕ) (v : Bool) :
    (s.marcarBit k v).disco.datos = s.disco.datos := rfl

@[simp] theorem marcarBit_otorgadas (s : Pokedex) (k : ℕ) (v : Bool) :
    (s.marcarBit k v).entradasLibresOtorgadas = s.entradasLibresOtorgadas := rfl

@[simp] theorem marcarBit_mutex (s : Pokedex) (k : ℕ) (v : Bool) :
    (s.marcarBit k v).obtenerEntradaArchivoLibreMutex = s.obtenerEntradaArchivoLibreMutex := rfl

/-! ## Counting -/

def unos (bitmap : ℕ → UInt8) (n : ℕ) : Finset ℕ := (Finset.range n).filter (bit bitmap ·)

theorem mem_unos {bitmap : ℕ → UInt8} {n k : ℕ} :
    k ∈ unos bitmap n ↔ k < n ∧ bit bitmap k = true := by
  simp [unos]

theorem contarBits_eq : ∀ c < 256,
    contarBits 8 c = ((Finset.range 8).filter fun j => c.testBit (7 - j)).card := by
  decide +kernel

theorem bitsEnChar_eq (bitmap : ℕ → UInt8) (i : ℕ) :
    bitsEnChar (bitmap i) =
      ((Finset.range 8).filter fun j => bit bitmap (i * 8 + j)).card := by
  unfold bitsEnChar
  rw [contarBits_eq _ (bitmap i).toNat_lt]
  congr 1
  apply Finset.filter_congr
  intro j hj
  have hj8 : j < 8 := Finset.mem_range.mp hj
  have hdiv : (i * 8 + j) / 8 = i := by omega
  have hmod : (i * 8 + j) % 8 = j := by omega
  rw [bit_eq_testBit, hdiv, hmod]

theorem unos_add (bitmap : ℕ → UInt8) (n m : ℕ) :
    (unos bitmap (n + m)).card =
      (unos bitmap n).card + ((Finset.range m).filter fun j => bit bitmap (n + j)).card := by
  simp only [unos, Finset.card_filter, Finset.sum_range_add]

theorem suma_bitsEnChar (bitmap : ℕ → UInt8) (t : ℕ) :
    ((List.range t).map fun i => bitsEnChar (bitmap i)).sum = (unos bitmap (t * 8)).card := by
  induction t with
  | zero => simp [unos]
  | succ t ih =>
    rw [List.range_succ, List.map_append, List.sum_append, ih, Nat.add_mul, unos_add]
    simp [bitsEnChar_eq]

theorem unos_eq_of_zeros {bitmap : ℕ → UInt8} {m n : ℕ} (hmn : m ≤ n)
    (hz : ∀ k, m ≤ k → k < n → bit bitmap k = false) : unos bitmap n = unos bitmap m := by
  ext k
  rw [mem_unos, mem_unos]
  constructor
  · rintro ⟨hk, hb⟩
    refine ⟨?_, hb⟩
    by_contra hkm
    rw [hz k (by omega) hk] at hb
    simp at hb
  · rintro ⟨hk, hb⟩
    exact ⟨by omega, hb⟩

theorem primerBitLibre_eq_some {d : Disco} {k : ℕ} :
    primerBitLibre d = some k ↔ bit d.bitmap k = false ∧
      k < (i32 (tamanioBitMapEnBytes d.header)).toNat * 8 ∧
      ∀ j < k, bit d.bitmap j = true := by
  simp [primerBitLibre, List.find?_range_eq_some]

end TpSo.Osada
