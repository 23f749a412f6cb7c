import Mathlib.Order.Bounds.Basic
import TpSo.Osada.Format

/-!
# Where the data blocks start

The data blocks follow the allocation table, which has a cell of four bytes for every block that is
left for the two of them. The size of the table is rounded up by the remainder of the wrong
quantity: that of its blocks, and not of its bytes.
-/

namespace TpSo.Osada

/-- The regions of the disk fill it, with an allocation table of `tamanio` blocks: the fewest that
hold its cells. -/
structure OsadaHeader.Tesela (h : OsadaHeader) (tamanio : ℕ) : Prop where
  /-- The field is an `uint32_t`. -/
  chico : h.fsBlocks < 4294967296
  tabla : h.inicioTablaAsignaciones = 1 + h.bitmapBlocks + 1024
  suma : h.fsBlocks = h.inicioTablaAsignaciones + tamanio + h.dataBlocks
  menor : IsLeast {t | 4 * (h.fsBlocks - h.bitmapBlocks - 1025) ≤ 64 * t} tamanio

/-- The blocks for the allocation table and the data. -/
def OsadaHeader.bloquesSinTablas (h : OsadaHeader) : ℕ := h.fsBlocks - h.bitmapBlocks - 1025

/-- Where the code is to look for the data, and how large it is to take the allocation table. -/
structure OsadaHeader.BienRepartido (h : OsadaHeader) (tamanio : ℕ) : Prop where
  tabla : obtenerTamanioAsignaciones h = tamanio
  datos : ∀ b < h.dataBlocks,
    h.inicioTablaAsignaciones + tamanio ≤ obtenerInicioTablaBloques h + b ∧
      obtenerInicioTablaBloques h + b < h.fsBlocks

namespace OsadaHeader.Tesela
variable {h : OsadaHeader} {tamanio : ℕ}

theorem tamanio_eq (ht : h.Tesela tamanio) : tamanio = (h.bloquesSinTablas + 15) / 16 := by
  obtain ⟨hcabe, hmenor⟩ := ht.menor
  change 4 * h.bloquesSinTablas ≤ 64 * tamanio at hcabe
  have hle : tamanio ≤ (h.bloquesSinTablas + 15) / 16 := by
    apply hmenor
    change 4 * h.bloquesSinTablas ≤ 64 * ((h.bloquesSinTablas + 15) / 16)
    omega
  omega

/-- Sixteen cells go into a block. -/
theorem obtenerTamanioAsignaciones_eq (ht : h.Tesela tamanio) :
    obtenerTamanioAsignaciones h =
      if h.bloquesSinTablas / 16 % 64 ≠ 0 then h.bloquesSinTablas / 16 + 1
      else h.bloquesSinTablas / 16 := by
  have hchico := ht.chico
  have htabla := ht.tabla
  have hsuma := ht.suma
  have hlibres : u32 ((h.fsBlocks : ℤ) - h.bitmapBlocks - 1 - 1024) = h.bloquesSinTablas := by
    unfold u32 bloquesSinTablas
    omega
  have hceldas : h.bloquesSinTablas * 4 / 64 = h.bloquesSinTablas / 16 := by omega
  unfold obtenerTamanioAsignaciones
  rw [hlibres, hceldas]

theorem tamanio_iff (ht : h.Tesela tamanio) : obtenerTamanioAsignaciones h = tamanio ↔
    (h.bloquesSinTablas % 16 = 0 ↔ h.bloquesSinTablas / 16 % 64 = 0) := by
  rw [ht.obtenerTamanioAsignaciones_eq, ht.tamanio_eq]
  split <;> omega

theorem datos_de_tamanio (ht : h.Tesela tamanio) (htam : obtenerTamanioAsignaciones h = tamanio)
    {b : ℕ} (hb : b < h.dataBlocks) :
    h.inicioTablaAsignaciones + tamanio ≤ obtenerInicioTablaBloques h + b ∧
      obtenerInicioTablaBloques h + b < h.fsBlocks := by
  have hchico := ht.chico
  have hsuma := ht.suma
  have hinicio : obtenerInicioTablaBloques h = h.inicioTablaAsignaciones + tamanio := by
    rw [obtenerInicioTablaBloques, htam, ← Nat.cast_add]
    exact u32_natCast_of_lt (by omega)
  omega

end OsadaHeader.Tesela

/-- The table and the data are where they should be if and only if its last block is full when its
blocks are a multiple of 64, and only then. -/
theorem bienRepartido_iff {h : OsadaHeader} {tamanio : ℕ} (ht : h.Tesela tamanio) :
    h.BienRepartido tamanio ↔
      (h.bloquesSinTablas % 16 = 0 ↔ h.bloquesSinTablas / 16 % 64 = 0) := by
  rw [← ht.tamanio_iff]
  constructor
  · intro hbien
    exact hbien.tabla
  · intro htam
    exact ⟨htam, fun b hb => ht.datos_de_tamanio htam hb⟩

/-- Seventeen blocks for the table and the data: two and fifteen. -/
def diecisiete : OsadaHeader := ⟨1045, 3, 1028, 15⟩

theorem tesela_diecisiete : diecisiete.Tesela 2 := by
  refine ⟨by decide, by decide, by decide, ?_, ?_⟩
  · decide
  · intro t ht
    change 4 * 17 ≤ 64 * t at ht
    omega

theorem bienRepartido_iff_diecisiete : diecisiete.BienRepartido 2 ↔
    (diecisiete.bloquesSinTablas % 16 = 0 ↔ diecisiete.bloquesSinTablas / 16 % 64 = 0) :=
  bienRepartido_iff tesela_diecisiete

def dieciseis : OsadaHeader := ⟨1044, 3, 1028, 15⟩

/-- The table is taken for one block more than it has, and the last data block for one that is not
of the disk. -/
theorem no_bienRepartido_dieciseis : dieciseis.Tesela 1 ∧
    obtenerTamanioAsignaciones dieciseis = 2 ∧
    obtenerInicioTablaBloques dieciseis + 14 = dieciseis.fsBlocks ∧
    ¬ dieciseis.BienRepartido 1 := by
  refine ⟨⟨by decide, by decide, by decide, by decide, ?_⟩, by decide, by decide, ?_⟩
  · intro t ht
    change 4 * 16 ≤ 64 * t at ht
    omega
  · intro hbien
    exact absurd hbien.tabla (by decide)

end TpSo.Osada
