import TpSo.Osada.BienFormado

/-!
# Disks without entries and disks with one file

The bits of the blocks before the data are set, the others clear, and every slot of the table
is deleted. Such a disk is well formed for every header whose numbers fit together, and so is
one with a file in the first slot and in the first blocks.
-/

namespace TpSo.Osada

/-- The byte whose first `t` bits are set, all of them from 8 on. -/
def primerosBits (t : ℕ) : UInt8 := UInt8.ofNat (256 - 2 ^ (8 - min 8 t))

theorem primerosBits_testBit : ∀ t < 9, ∀ j < 8,
    (primerosBits t).toNat.testBit (7 - j) = decide (j < t) := by
  decide

theorem bit_primerosBits (t k : ℕ) :
    bit (fun i => primerosBits (t - i * 8)) k = decide (k < t) := by
  have hmin : ∀ t, primerosBits t = primerosBits (min 8 t) := fun t => by
    simp [primerosBits]
  rw [bit_eq_testBit, hmin, primerosBits_testBit _ (by omega) _ (Nat.mod_lt _ (by decide))]
  congr 1
  apply propext
  omega

def OsadaFile.borrado : OsadaFile :=
  { state := .deleted, fname := [], fileSize := 0, parentDirectory := 0, lastmod := 0,
    firstBlock := 0 }

def discoFormateado (h : OsadaHeader) (regiones : h.Regiones) : Disco where
  header := h
  regiones := regiones
  bitmap i := primerosBits (obtenerInicioTablaBloques h - i * 8)
  archivos _ := .borrado
  asignaciones _ := 0
  datos _ := 0

section Formateado
variable {h : OsadaHeader} {regiones : h.Regiones}

theorem bit_formateado (k : ℕ) :
    bit (discoFormateado h regiones).bitmap k = decide (k < obtenerInicioTablaBloques h) :=
  bit_primerosBits _ k

theorem bienFormado_formateado
    (hsuma : obtenerInicioTablaBloques h + h.dataBlocks = h.fsBlocks)
    (halcanza : h.fsBlocks ≤ h.bitmapBlocks * 64 * 8) (hchico : h.fsBlocks * 64 < 2147483648) :
    BienFormado (discoFormateado h regiones) where
  suma := hsuma
  alcanza := halcanza
  chico := hchico
  bajos k hk := by
    rw [bit_formateado]
    exact decide_eq_true hk
  altos k hk _ := by
    rw [bit_formateado]
    have hle : h.fsBlocks ≤ k := hk
    exact decide_eq_false (by omega)
  cadena _ _ hreg := by simp [discoFormateado, OsadaFile.borrado] at hreg
  directorios _ _ hdir := by simp [discoFormateado, OsadaFile.borrado] at hdir
  disjuntas _ _ _ _ _ hreg := by simp [discoFormateado, OsadaFile.borrado] at hreg
  ocupados b _ := by
    rw [bit_formateado, Disco.inicio]
    constructor
    · intro hlt
      have hlt' : obtenerInicioTablaBloques h + b < obtenerInicioTablaBloques h :=
        of_decide_eq_true hlt
      omega
    · rintro ⟨i, _, hreg, _⟩
      simp [discoFormateado, OsadaFile.borrado] at hreg

theorem libres_formateado : libres (discoFormateado h regiones) = h.dataBlocks := by
  have hlibres : bloquesLibres (discoFormateado h regiones) = Finset.range h.dataBlocks := by
    ext b
    rw [mem_bloquesLibres, bit_formateado, Finset.mem_range, Disco.inicio]
    change b < h.dataBlocks ∧ _ ↔ _
    rw [decide_eq_false_iff_not]
    exact and_iff_left (Nat.not_lt.mpr (Nat.le_add_right _ b))
  rw [libres, hlibres, Finset.card_range]

def headerChico : OsadaHeader where
  fsBlocks := 1046
  bitmapBlocks := 3
  inicioTablaAsignaciones := 1028
  dataBlocks := 16

theorem headerChico_regiones : headerChico.Regiones where
  cabe := by decide
  tabla := by decide
  celdas := by decide

def discoChico : Disco := discoFormateado headerChico headerChico_regiones

theorem bienFormado_discoChico : BienFormado discoChico :=
  bienFormado_formateado (by decide) (by decide) (by decide)

/-- The file `a` of `size` bytes, in the first `k` blocks; what the blocks hold is not zero. -/
def discoConArchivo (h : OsadaHeader) (regiones : h.Regiones) (k size : ℕ) : Disco where
  header := h
  regiones := regiones
  bitmap i := primerosBits (obtenerInicioTablaBloques h + k - i * 8)
  archivos i :=
    if i = 0 then
      { state := .regular, fname := [97], fileSize := size, parentDirectory := 65535,
        lastmod := 0, firstBlock := if k = 0 then uint32Max else 0 }
    else .borrado
  asignaciones b := if b + 1 < k then b + 1 else uint32Max
  datos _ := 65

section ConArchivo
variable {k size : ℕ}

theorem bit_conArchivo (b : ℕ) : bit (discoConArchivo h regiones k size).bitmap b =
    decide (b < obtenerInicioTablaBloques h + k) := bit_primerosBits _ b

theorem estado_conArchivo {i : ℕ}
    (hi : ((discoConArchivo h regiones k size).archivos i).state ≠ .deleted) : i = 0 := by
  by_contra hne
  exact hi (congrArg OsadaFile.state (if_neg hne))

theorem cadena_conArchivo (hk : k < uint32Max) : Chain
    (discoConArchivo h regiones k size).asignaciones uint32Max
    ((discoConArchivo h regiones k size).archivos 0).firstBlock (List.range k) := by
  have hdesde : ∀ n j, j + n = k → 0 < n → Chain (discoConArchivo h regiones k size).asignaciones
      uint32Max j (List.range' j n) := by
    intro n
    induction n with
    | zero => exact fun j _ hn => absurd hn (Nat.lt_irrefl 0)
    | succ n ih =>
      intro j hj _
      refine .cons (by omega) ?_
      rcases Nat.eq_zero_or_pos n with rfl | hpos
      · have hfin : (discoConArchivo h regiones k size).asignaciones j = uint32Max :=
          if_neg (by omega)
        rw [hfin]
        exact .nil
      · have hsig : (discoConArchivo h regiones k size).asignaciones j = j + 1 :=
          if_pos (by omega)
        rw [hsig]
        exact ih (j + 1) (by omega) hpos
  rw [List.range_eq_range']
  rcases Nat.eq_zero_or_pos k with rfl | hpos
  · exact .nil
  · have hprimero : ((discoConArchivo h regiones k size).archivos 0).firstBlock = 0 :=
      if_neg (by omega)
    rw [hprimero]
    exact hdesde k 0 (Nat.zero_add k) hpos

theorem bienFormado_conArchivo
    (hsuma : obtenerInicioTablaBloques h + h.dataBlocks = h.fsBlocks)
    (halcanza : h.fsBlocks ≤ h.bitmapBlocks * 64 * 8) (hchico : h.fsBlocks * 64 < 2147483648)
    (hk : k ≤ h.dataBlocks) (hsize : bloquesPara size ≤ k) :
    BienFormado (discoConArchivo h regiones k size) := by
  have hmax : k < uint32Max := by
    unfold uint32Max
    omega
  have hcadena : Chain (discoConArchivo h regiones k size).asignaciones uint32Max
      ((discoConArchivo h regiones k size).archivos 0).firstBlock (List.range k) :=
    cadena_conArchivo hmax
  refine ⟨hsuma, halcanza, hchico, ?_, ?_, ?_, ?_, ?_, ?_⟩
  · intro b hb
    rw [bit_conArchivo]
    exact decide_eq_true (Nat.lt_add_right k hb)
  · intro b hb _
    have hle : h.fsBlocks ≤ b := hb
    rw [bit_conArchivo]
    exact decide_eq_false (by omega)
  · intro i _ hreg
    obtain rfl := estado_conArchivo (by rw [hreg]; decide)
    exact ⟨_, hcadena, List.nodup_range, fun b hb => (List.mem_range.mp hb).trans_le hk,
      by rw [List.length_range]; exact hsize⟩
  · intro i _ hdir
    obtain rfl := estado_conArchivo (by rw [hdir]; decide)
    exact absurd hdir (by simp [discoConArchivo])
  · intro i _ j _ hij hri hrj
    obtain rfl := estado_conArchivo (by rw [hri]; decide)
    obtain rfl := estado_conArchivo (by rw [hrj]; decide)
    exact absurd rfl hij
  · intro b _
    rw [bit_conArchivo, Disco.inicio]
    constructor
    · intro hb
      have hlt : obtenerInicioTablaBloques h + b < obtenerInicioTablaBloques h + k :=
        of_decide_eq_true hb
      exact ⟨0, by decide, rfl, _, hcadena, List.mem_range.mpr (by omega)⟩
    · rintro ⟨i, _, hreg, xs, hx, hmem⟩
      obtain rfl := estado_conArchivo (by rw [hreg]; decide)
      rw [hx.unique hcadena] at hmem
      have hlt : obtenerInicioTablaBloques h + b < obtenerInicioTablaBloques h + k :=
        Nat.add_lt_add_left (List.mem_range.mp hmem) _
      exact decide_eq_true hlt

theorem libres_conArchivo :
    libres (discoConArchivo h regiones k size) = h.dataBlocks - k := by
  have hlibres : bloquesLibres (discoConArchivo h regiones k size) = Finset.Ico k h.dataBlocks := by
    ext b
    rw [mem_bloquesLibres, bit_conArchivo, Finset.mem_Ico, Disco.inicio]
    change b < h.dataBlocks ∧ _ ↔ _
    rw [decide_eq_false_iff_not]
    change b < h.dataBlocks ∧ ¬ obtenerInicioTablaBloques h + b < _ ↔ _
    omega
  rw [libres, hlibres, Nat.card_Ico]

end ConArchivo

end Formateado

end TpSo.Osada
