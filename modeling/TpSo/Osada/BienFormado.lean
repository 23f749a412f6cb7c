import Mathlib.Data.Finset.Sort
import TpSo.Base.Chain
import TpSo.Osada.Bitmap

/-!
# Well-formed disks

`BienFormado` is the condition on a disk in its own words. The proofs work with `Ocupacion`,
the same facts with the chain of every entry given and with the first blocks as a parameter:
in the middle of a write the first block of the file is in memory only.
-/

namespace TpSo.Osada

open Function (update)

/-- Blocks that `n` bytes need. -/
def bloquesPara (n : ℕ) : ℕ := (n + 63) / 64

structure BienFormado (d : Disco) : Prop where
  suma : d.inicio + d.header.dataBlocks = d.header.fsBlocks
  alcanza : d.header.fsBlocks ≤ d.header.bitmapBlocks * 64 * 8
  chico : d.header.fsBlocks * 64 < 2147483648
  bajos : ∀ k < d.inicio, bit d.bitmap k = true
  altos : ∀ k, d.header.fsBlocks ≤ k → k < d.header.bitmapBlocks * 64 * 8 →
    bit d.bitmap k = false
  cadena : ∀ i < 2048, (d.archivos i).state = .regular →
    ∃ xs : List ℕ, Chain d.asignaciones uint32Max (d.archivos i).firstBlock xs ∧ xs.Nodup ∧
      (∀ b ∈ xs, b < d.header.dataBlocks) ∧ bloquesPara (d.archivos i).fileSize ≤ xs.length
  directorios : ∀ i < 2048, (d.archivos i).state = .directory →
    (d.archivos i).firstBlock = uint32Max
  disjuntas : ∀ i < 2048, ∀ j < 2048, i ≠ j → (d.archivos i).state = .regular →
    (d.archivos j).state = .regular → ∀ xs ys : List ℕ,
    Chain d.asignaciones uint32Max (d.archivos i).firstBlock xs →
    Chain d.asignaciones uint32Max (d.archivos j).firstBlock ys → ∀ b ∈ xs, b ∉ ys
  ocupados : ∀ b < d.header.dataBlocks, bit d.bitmap (d.inicio + b) = true ↔
    ∃ i < 2048, (d.archivos i).state = .regular ∧
      ∃ xs : List ℕ, Chain d.asignaciones uint32Max (d.archivos i).firstBlock xs ∧ b ∈ xs

/-- The numbers of the disk fit together, and the bits of the blocks before the data are set. -/
structure Medido (d : Disco) : Prop where
  suma : d.inicio + d.header.dataBlocks = d.header.fsBlocks
  alcanza : d.header.fsBlocks ≤ d.header.bitmapBlocks * 64 * 8
  chico : d.header.fsBlocks * 64 < 2147483648
  bajos : ∀ k < d.inicio, bit d.bitmap k = true

/-- The part of the condition that does not look at the files. -/
structure Mapeado (d : Disco) : Prop extends Medido d where
  altos : ∀ k, d.header.fsBlocks ≤ k → k < d.header.bitmapBlocks * 64 * 8 →
    bit d.bitmap k = false

/-- Chains `cad i` from the first blocks `raiz i` account for every set bit. -/
structure Ocupacion (d : Disco) (raiz : ℕ → ℕ) (cad : ℕ → List ℕ) : Prop
    extends Mapeado d where
  fat : Fat d.asignaciones uint32Max raiz cad
  enRango : ∀ i, ∀ b ∈ cad i, b < d.header.dataBlocks
  bits : ∀ b < d.header.dataBlocks,
    bit d.bitmap (d.inicio + b) = true ↔ ∃ i, b ∈ cad i

/-- The first block of the file at slot `i`; no chain for what is not a file. -/
def Disco.raiz (d : Disco) (i : ℕ) : ℕ :=
  if i < 2048 ∧ (d.archivos i).state = .regular then (d.archivos i).firstBlock else uint32Max

theorem raiz_regular {d : Disco} {i : ℕ} (hi : i < 2048)
    (hr : (d.archivos i).state = .regular) : d.raiz i = (d.archivos i).firstBlock := by
  simp [Disco.raiz, hi, hr]

theorem raiz_otro {d : Disco} {i : ℕ} (h : ¬ (i < 2048 ∧ (d.archivos i).state = .regular)) :
    d.raiz i = uint32Max := by
  simp [Disco.raiz, h]

/-- Every file has the blocks its size needs, and directories have none. -/
structure Descriptores (d : Disco) (cad : ℕ → List ℕ) : Prop where
  alcanzan : ∀ i < 2048, (d.archivos i).state = .regular →
    bloquesPara (d.archivos i).fileSize ≤ (cad i).length
  directorios : ∀ i < 2048, (d.archivos i).state = .directory →
    (d.archivos i).firstBlock = uint32Max

theorem Ocupacion.cad_eq_nil {d : Disco} {cad : ℕ → List ℕ} (h : Ocupacion d d.raiz cad) {i : ℕ}
    (hi : ¬ (i < 2048 ∧ (d.archivos i).state = .regular)) : cad i = [] := by
  have hc := h.fat.chain i
  rw [raiz_otro hi] at hc
  exact hc.eq_nil_iff.mpr rfl

theorem Ocupacion.cadena {d : Disco} {cad : ℕ → List ℕ} (h : Ocupacion d d.raiz cad) {i : ℕ}
    (hi : i < 2048) (hr : (d.archivos i).state = .regular) :
    Chain d.asignaciones uint32Max (d.archivos i).firstBlock (cad i) := by
  simpa only [raiz_regular hi hr] using h.fat.chain i

theorem Ocupacion.bienFormado {d : Disco} {cad : ℕ → List ℕ} (h : Ocupacion d d.raiz cad)
    (hd : Descriptores d cad) : BienFormado d where
  suma := h.suma
  alcanza := h.alcanza
  chico := h.chico
  bajos := h.bajos
  altos := h.altos
  directorios := hd.directorios
  cadena i hi hr :=
    ⟨cad i, h.cadena hi hr, (h.fat.chain i).nodup, h.enRango i, hd.alcanzan i hi hr⟩
  disjuntas i hi j hj hij hri hrj xs ys hx hy b hb := by
    rw [hx.unique (h.cadena hi hri)] at hb
    rw [hy.unique (h.cadena hj hrj)]
    exact h.fat.disjoint i j hij b hb
  ocupados b hb := by
    rw [h.bits b hb]
    constructor
    · rintro ⟨i, hmem⟩
      by_cases hi : i < 2048 ∧ (d.archivos i).state = .regular
      · exact ⟨i, hi.1, hi.2, cad i, h.cadena hi.1 hi.2, hmem⟩
      · rw [h.cad_eq_nil hi] at hmem
        exact absurd hmem List.not_mem_nil
    · rintro ⟨i, hi, hr, xs, hx, hmem⟩
      exact ⟨i, by rwa [← hx.unique (h.cadena hi hr)]⟩

theorem BienFormado.ocupacion {d : Disco} (h : BienFormado d) :
    ∃ cad, Ocupacion d d.raiz cad ∧ Descriptores d cad := by
  have hex : ∀ i, ∃ xs : List ℕ, Chain d.asignaciones uint32Max (d.raiz i) xs ∧
      (∀ b ∈ xs, b < d.header.dataBlocks) ∧
      (i < 2048 → (d.archivos i).state = .regular →
        bloquesPara (d.archivos i).fileSize ≤ xs.length) := by
    intro i
    by_cases hi : i < 2048 ∧ (d.archivos i).state = .regular
    · obtain ⟨xs, hc, _, hlt, hlen⟩ := h.cadena i hi.1 hi.2
      rw [raiz_regular hi.1 hi.2]
      exact ⟨xs, hc, hlt, fun _ _ => hlen⟩
    · rw [raiz_otro hi]
      exact ⟨[], .nil, by simp, fun h1 h2 => absurd ⟨h1, h2⟩ hi⟩
  choose cad hc hlt hlen using hex
  have hreg : ∀ i, ∀ b ∈ cad i, i < 2048 ∧ (d.archivos i).state = .regular := by
    intro i b hb
    by_contra hi
    have hci := hc i
    rw [raiz_otro hi] at hci
    rw [hci.eq_nil_iff.mpr rfl] at hb
    exact List.not_mem_nil hb
  refine ⟨cad, ⟨⟨⟨h.suma, h.alcanza, h.chico, h.bajos⟩, h.altos⟩, ⟨hc, ?_⟩, hlt, ?_⟩,
    ⟨fun i hi hr => hlen i hi hr, h.directorios⟩⟩
  · intro i j hij b hb hb'
    obtain ⟨hi, hri⟩ := hreg i b hb
    obtain ⟨hj, hrj⟩ := hreg j b hb'
    have hci := hc i
    have hcj := hc j
    rw [raiz_regular hi hri] at hci
    rw [raiz_regular hj hrj] at hcj
    exact h.disjuntas i hi j hj hij hri hrj _ _ hci hcj b hb hb'
  · intro b hb
    rw [h.ocupados b hb]
    constructor
    · rintro ⟨i, hi, hr, xs, hx, hmem⟩
      have hci := hc i
      rw [raiz_regular hi hr] at hci
      exact ⟨i, by rwa [← hx.unique hci]⟩
    · rintro ⟨i, hmem⟩
      obtain ⟨hi, hr⟩ := hreg i b hmem
      have hci := hc i
      rw [raiz_regular hi hr] at hci
      exact ⟨i, hi, hr, cad i, hci, hmem⟩

/-! ## Free blocks -/

def bloquesLibres (d : Disco) : Finset ℕ :=
  (Finset.range d.header.dataBlocks).filter fun b => bit d.bitmap (d.inicio + b) = false

abbrev libres (d : Disco) : ℕ := (bloquesLibres d).card

theorem mem_bloquesLibres {d : Disco} {b : ℕ} :
    b ∈ bloquesLibres d ↔ b < d.header.dataBlocks ∧ bit d.bitmap (d.inicio + b) = false := by
  simp [bloquesLibres]

theorem libres_le (d : Disco) : libres d ≤ d.header.dataBlocks := by
  have hle := Finset.card_filter_le (Finset.range d.header.dataBlocks)
    fun b => bit d.bitmap (d.inicio + b) = false
  simpa [libres, bloquesLibres] using hle

/-- The free blocks, lowest first: the order in which they are handed out. -/
def libresEnOrden (d : Disco) : List ℕ := (bloquesLibres d).sort (· ≤ ·)

theorem length_libresEnOrden (d : Disco) : (libresEnOrden d).length = libres d :=
  Finset.length_sort _

theorem mem_libresEnOrden {d : Disco} {b : ℕ} : b ∈ libresEnOrden d ↔ b ∈ bloquesLibres d :=
  Finset.mem_sort _

theorem bloquesLibres_congr {d d' : Disco} (hh : d'.header = d.header)
    (hb : d'.bitmap = d.bitmap) : bloquesLibres d' = bloquesLibres d := by
  simp only [bloquesLibres, inicio_congr hh, hh, hb]

theorem Medido.congr {d d' : Disco} (h : Medido d) (hh : d'.header = d.header)
    (hb : d'.bitmap = d.bitmap) : Medido d' where
  suma := by simpa only [inicio_congr hh, hh] using h.suma
  alcanza := by simpa only [hh] using h.alcanza
  chico := by simpa only [hh] using h.chico
  bajos := by simpa only [inicio_congr hh, hh, hb] using h.bajos

theorem Mapeado.congr {d d' : Disco} (h : Mapeado d) (hh : d'.header = d.header)
    (hb : d'.bitmap = d.bitmap) : Mapeado d' where
  toMedido := h.toMedido.congr hh hb
  altos := by simpa only [hh, hb] using h.altos

namespace Medido

variable {d : Disco} (h : Medido d)
include h

theorem dataBlocks_lt : d.header.dataBlocks < uint32Max := by
  have hsum := h.suma
  have hch := h.chico
  unfold uint32Max
  omega

theorem ne_uint32Max {b : ℕ} (hb : b < d.header.dataBlocks) : b ≠ uint32Max :=
  (hb.trans h.dataBlocks_lt).ne

theorem lt_bits {b : ℕ} (hb : b < d.header.dataBlocks) :
    d.inicio + b < d.header.bitmapBlocks * 64 * 8 := by
  have hsum := h.suma
  have halc := h.alcanza
  omega

theorem tamanio : tamanioBitMapEnBytes d.header = d.header.bitmapBlocks * 64 := by
  have hc := d.regiones.cabe
  have hch := h.chico
  unfold tamanioBitMapEnBytes
  rw [show ((d.header.bitmapBlocks : ℤ) * 64) = ((d.header.bitmapBlocks * 64 : ℕ) : ℤ) by simp]
  exact u32_natCast_of_lt (by omega)

theorem bitsDelMapa :
    (i32 (tamanioBitMapEnBytes d.header)).toNat * 8 = d.header.bitmapBlocks * 64 * 8 := by
  have hc := d.regiones.cabe
  have hch := h.chico
  rw [h.tamanio, i32_natCast_of_lt (by omega)]
  omega

/-- With free blocks the search finds the lowest of them. -/
theorem primerBitLibre_eq (hl : 0 < libres d) :
    ∃ b ∈ bloquesLibres d, primerBitLibre d = some (d.inicio + b) ∧
      ∀ c ∈ bloquesLibres d, b ≤ c := by
  obtain ⟨b, hb, hmin⟩ := Finset.exists_min_image (bloquesLibres d) id (Finset.card_pos.mp hl)
  obtain ⟨hlt, hz⟩ := mem_bloquesLibres.mp hb
  have hsum := h.suma
  have halc := h.alcanza
  refine ⟨b, hb, primerBitLibre_eq_some.mpr ⟨hz, ?_, ?_⟩, hmin⟩
  · rw [h.bitsDelMapa]
    omega
  · intro j hj
    by_cases hlow : j < d.inicio
    · exact h.bajos j hlow
    by_contra hne
    have hfree : j - d.inicio ∈ bloquesLibres d := by
      have hadd : d.inicio + (j - d.inicio) = j := by omega
      exact mem_bloquesLibres.mpr ⟨by omega, by simpa [hadd] using hne⟩
    have hle := hmin _ hfree
    simp only [id_eq] at hle
    omega

end Medido

/-- The source counts the set bits of the whole bitmap: the rest are the free blocks. -/
theorem Mapeado.obtenerBloquesLibres_eq {d : Disco} (h : Mapeado d) :
    obtenerBloquesLibres d = libres d := by
  have hsum := h.suma
  have hch := h.chico
  have hones : unos d.bitmap (d.header.bitmapBlocks * 64 * 8) =
      unos d.bitmap (d.inicio + d.header.dataBlocks) := by
    rw [hsum]
    exact unos_eq_of_zeros h.alcanza h.altos
  have hlow : (unos d.bitmap d.inicio).card = d.inicio := by
    have hall : unos d.bitmap d.inicio = Finset.range d.inicio :=
      Finset.filter_true_of_mem fun k hk => h.bajos k (Finset.mem_range.mp hk)
    rw [hall, Finset.card_range]
  have hsplit : ((Finset.range d.header.dataBlocks).filter
      fun b => bit d.bitmap (d.inicio + b) = true).card + libres d = d.header.dataBlocks := by
    have hcard := Finset.card_filter_add_card_filter_not (s := Finset.range d.header.dataBlocks)
      (fun b => bit d.bitmap (d.inicio + b) = true)
    simpa [libres, bloquesLibres] using hcard
  unfold obtenerBloquesLibres
  rw [h.tamanio, suma_bitsEnChar, hones, unos_add, hlow]
  rw [show ((d.header.fsBlocks : ℤ) - ((d.inicio + ((Finset.range d.header.dataBlocks).filter
      fun b => bit d.bitmap (d.inicio + b) = true).card : ℕ) : ℤ)) = ((libres d : ℕ) : ℤ) by
    omega]
  exact u32_natCast_of_lt (by omega)

end TpSo.Osada
