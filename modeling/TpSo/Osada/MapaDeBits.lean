import Mathlib.Data.Finset.Max
import TpSo.Base.Pool
import TpSo.Osada.Formateo

/-!
# The allocation of blocks on any header

Counting goes over all the bits of the map, searching over as many as an `int` of its size says,
and marking shifts a block number by the start of the data. `cumple_iff` says for which headers
and maps the three agree; the bits from `fs_blocks` on must not be there.
-/

namespace TpSo.Osada

/-- The header, the bitmap as the server keeps it in memory and as the disk has it. -/
structure MapaDeBits where
  header : OsadaHeader
  cache : ℕ → UInt8
  disco : ℕ → UInt8

namespace MapaDeBits

def inicio (m : MapaDeBits) : ℕ := obtenerInicioTablaBloques m.header

def tamanio (m : MapaDeBits) : ℕ := tamanioBitMapEnBytes m.header

def bitsContados (m : MapaDeBits) : ℕ := m.tamanio * 8

/-- The bits that `obtenerPrimerBloqueLibre` looks at: the size is an `int` there. -/
def bitsBuscados (m : MapaDeBits) : ℕ := (i32 m.tamanio).toNat * 8

def obtenerBloquesLibres (m : MapaDeBits) : ℕ :=
  u32 (m.header.fsBlocks - ((List.range m.tamanio).map fun i => bitsEnChar (m.cache i)).sum)

/-- The byte is read from the copy in memory and written to both. -/
def escribir (m : MapaDeBits) (k : ℕ) (ocupado : Bool) : MapaDeBits :=
  let byteAModificar := conBit (m.cache (k / 8)) (k - k / 8 * 8) ocupado
  { m with
    cache := Function.update m.cache (k / 8) byteAModificar
    disco := Function.update m.disco (k / 8) byteAModificar }

/-- A byte past the copy in memory is not the program's: the run is not followed there. -/
def editarBloqueEnBitmap (nBloque : ℕ) (ocupado : Bool) : Op MapaDeBits ℤ := fun m =>
  let k := u32 (nBloque + m.inicio)
  if k / 8 < m.tamanio then (some 0, m.escribir k ocupado) else (none, m)

def primerBitLibre (m : MapaDeBits) : Option ℕ :=
  (List.range m.bitsBuscados).find? fun k => !bit m.cache k

def obtenerPrimerBloqueLibre : Op MapaDeBits ℤ := do
  let m ← Op.get id
  match m.primerBitLibre with
  | none => pure (-1)
  | some resultado =>
    let _ ← editarBloqueEnBitmap (u32 (resultado - m.inicio)) true
    pure (i32 (resultado - m.inicio))

/-- What the requirement asks of a header and a bitmap, on the disk and in the copy. -/
structure Valido (m : MapaDeBits) : Prop where
  suma : m.inicio + m.header.dataBlocks = m.header.fsBlocks
  alcanza : m.header.fsBlocks ≤ m.header.bitmapBlocks * 512
  chico : m.header.fsBlocks < 4294967296
  bajos : ∀ k < m.inicio, bit m.disco k = true
  altos : ∀ k, m.header.fsBlocks ≤ k → k < m.header.bitmapBlocks * 512 → bit m.disco k = false
  iguales : ∀ i < m.tamanio, m.cache i = m.disco i

def libres (m : MapaDeBits) : Finset ℕ :=
  (Finset.range m.header.dataBlocks).filter fun b => bit m.disco (m.inicio + b) = false

structure Marca (m m' : MapaDeBits) (k : ℕ) (v : Bool) : Prop where
  header : m'.header = m.header
  cache : ∀ j, bit m'.cache j = if j = k then v else bit m.cache j
  disco : ∀ j, bit m'.disco j = if j = k then v else bit m.disco j

/-- What a call has to do. -/
structure AsignaBien (m : MapaDeBits) : Prop where
  hayLibres : 0 < m.obtenerBloquesLibres → ∃ (b : ℕ) (m' : MapaDeBits),
    obtenerPrimerBloqueLibre m = (some (b : ℤ), m') ∧ IsLeast (m.libres : Set ℕ) b ∧
      Marca m m' (m.inicio + b) true ∧ m'.obtenerBloquesLibres = m.obtenerBloquesLibres - 1
  lleno : m.obtenerBloquesLibres = 0 → obtenerPrimerBloqueLibre m = (some (-1), m)

/-- What calls in a row have to do: as many blocks as are free are handed out, no one twice, then
none, and one that is given back is the one that can be had again. -/
def PideBien (m : MapaDeBits) : Prop :=
  ∃ (bs : List ℕ) (m' : MapaDeBits),
    obtenerPrimerBloqueLibre.times m.obtenerBloquesLibres m =
        (some (bs.map fun b : ℕ => (b : ℤ)), m') ∧
      bs.Nodup ∧ (∀ b ∈ bs, b ∈ m.libres) ∧ obtenerPrimerBloqueLibre m' = (some (-1), m') ∧
      ∀ b ∈ bs, ∃ m₁ m₂, editarBloqueEnBitmap b false m' = (some 0, m₁) ∧
        Marca m' m₁ (m.inicio + b) false ∧ obtenerPrimerBloqueLibre m₁ = (some (b : ℤ), m₂) ∧
        obtenerPrimerBloqueLibre m₂ = (some (-1), m₂)

/-- When the counting, the searching and the marking agree. -/
structure Concuerda (m : MapaDeBits) : Prop where
  cuenta : m.header.fsBlocks ≤ m.bitsContados
  busca : m.bitsBuscados ≤ m.header.fsBlocks
  alcanzados : ∀ b ∈ m.libres, m.inicio + b < m.bitsBuscados ∧ b < 2147483648

def ceros (bitmap : ℕ → UInt8) (n : ℕ) : Finset ℕ :=
  (Finset.range n).filter fun k => bit bitmap k = false

/-- The clear bits that the search gets to and that are of blocks of the disk. -/
def alcance (m : MapaDeBits) : Finset ℕ := ceros m.cache (min m.bitsBuscados m.header.fsBlocks)

theorem mem_ceros {bitmap : ℕ → UInt8} {n k : ℕ} :
    k ∈ ceros bitmap n ↔ k < n ∧ bit bitmap k = false := by
  simp [ceros]

theorem card_ceros (bitmap : ℕ → UInt8) (n : ℕ) :
    (ceros bitmap n).card + (unos bitmap n).card = n := by
  have hsum := Finset.card_filter_add_card_filter_not (s := Finset.range n)
    (fun k => bit bitmap k = false)
  rw [Finset.card_range] at hsum
  simpa [ceros, unos] using hsum

section Cuentas
variable {m m' : MapaDeBits} {k : ℕ} {v : Bool}

theorem mem_alcance :
    k ∈ m.alcance ↔ (k < m.bitsBuscados ∧ k < m.header.fsBlocks) ∧ bit m.cache k = false := by
  rw [alcance, mem_ceros, lt_min_iff]

theorem bitsBuscados_le (m : MapaDeBits) : m.bitsBuscados ≤ m.bitsContados := by
  unfold bitsBuscados bitsContados i32
  split <;> omega

theorem bitsBuscados_congr (hh : m'.header = m.header) : m'.bitsBuscados = m.bitsBuscados :=
  congrArg (fun h => (i32 (tamanioBitMapEnBytes h)).toNat * 8) hh

theorem bitsContados_le (m : MapaDeBits) : m.bitsContados ≤ m.header.bitmapBlocks * 512 := by
  unfold bitsContados tamanio tamanioBitMapEnBytes u32
  omega

namespace Valido

theorem bit_cache (h : Valido m) (hk : k < m.bitsContados) : bit m.cache k = bit m.disco k := by
  unfold bitsContados at hk
  unfold bit
  rw [h.iguales (k / 8) (by omega)]

theorem altos_cache (h : Valido m) (hfs : m.header.fsBlocks ≤ k) (hk : k < m.bitsContados) :
    bit m.cache k = false := by
  have hle := m.bitsContados_le
  rw [h.bit_cache hk]
  exact h.altos k hfs (by omega)

/-- What is counted: the clear bits of the blocks that the map has, and a block for every one that
it does not have. -/
theorem obtenerBloquesLibres_eq (h : Valido m) : m.obtenerBloquesLibres =
    (ceros m.cache (min m.bitsContados m.header.fsBlocks)).card +
      (m.header.fsBlocks - m.bitsContados) := by
  have hunos : unos m.cache m.bitsContados =
      unos m.cache (min m.bitsContados m.header.fsBlocks) := by
    apply unos_eq_of_zeros (min_le_left _ _)
    intro k hk hlt
    exact h.altos_cache (by omega) hlt
  have hcard := card_ceros m.cache (min m.bitsContados m.header.fsBlocks)
  have hchico := h.chico
  unfold MapaDeBits.obtenerBloquesLibres
  rw [suma_bitsEnChar, show m.tamanio * 8 = m.bitsContados from rfl, hunos]
  unfold u32
  omega

theorem inicio_le (h : Valido m) (hk : k ∈ m.alcance) : m.inicio ≤ k := by
  obtain ⟨⟨hlt, _⟩, hcero⟩ := mem_alcance.mp hk
  by_contra hbajo
  rw [h.bit_cache (hlt.trans_le m.bitsBuscados_le), h.bajos k (by omega)] at hcero
  exact absurd hcero (by decide)

theorem marca_escribir (h : Valido m) (hk : k < m.bitsContados) (v : Bool) :
    Marca m (m.escribir k v) k v where
  header := rfl
  cache j := bit_update m.cache k v j
  disco j := by
    unfold bitsContados at hk
    rw [escribir, h.iguales (k / 8) (by omega)]
    exact bit_update m.disco k v j

theorem escribir (h : Valido m) (hk : k < m.bitsContados) (hlo : m.inicio ≤ k)
    (hhi : k < m.header.fsBlocks) (v : Bool) : Valido (m.escribir k v) where
  suma := h.suma
  alcanza := h.alcanza
  chico := h.chico
  bajos j hj := by
    have hj' : j < m.inicio := hj
    rw [(h.marca_escribir hk v).disco, if_neg (by omega)]
    exact h.bajos j hj'
  altos j hj hlt := by
    have hj' : m.header.fsBlocks ≤ j := hj
    rw [(h.marca_escribir hk v).disco, if_neg (by omega)]
    exact h.altos j hj' hlt
  iguales i hi := by
    change Function.update m.cache (k / 8) _ i = Function.update m.disco (k / 8) _ i
    by_cases hik : i = k / 8
    · rw [hik, Function.update_self, Function.update_self]
    · rw [Function.update_of_ne hik, Function.update_of_ne hik]
      exact h.iguales i hi

end Valido

theorem ceros_escribir (h : Valido m) (hk : k < m.bitsContados) (n : ℕ) :
    ceros (m.escribir k true).cache n = (ceros m.cache n).erase k := by
  ext j
  rw [Finset.mem_erase, mem_ceros, mem_ceros, (h.marca_escribir hk true).cache]
  by_cases hj : j = k
  · simp [hj]
  · simp [hj]

theorem alcance_escribir (h : Valido m) (hk : k < m.bitsContados) :
    (m.escribir k true).alcance = m.alcance.erase k := ceros_escribir h hk _

theorem alcance_devolver (h : Valido m) (hk : k < m.bitsBuscados) (hfs : k < m.header.fsBlocks) :
    (m.escribir k false).alcance = insert k m.alcance := by
  ext j
  rw [Finset.mem_insert, mem_alcance, mem_alcance,
    (h.marca_escribir (hk.trans_le m.bitsBuscados_le) false).cache]
  change (j < m.bitsBuscados ∧ j < m.header.fsBlocks) ∧ _ ↔ _
  by_cases hj : j = k
  · simp [hj, hk, hfs]
  · simp [hj]

end Cuentas

section Llamadas
variable {m : MapaDeBits} {k : ℕ}

theorem primerBitLibre_eq_some : m.primerBitLibre = some k ↔
    bit m.cache k = false ∧ k < m.bitsBuscados ∧ ∀ j < k, bit m.cache j = true := by
  simp [primerBitLibre, List.find?_range_eq_some]

theorem editarBloqueEnBitmap_apply {nBloque : ℕ} (hk : k < m.bitsContados)
    (he : u32 (nBloque + m.inicio) = k) (v : Bool) :
    editarBloqueEnBitmap nBloque v m = (some 0, m.escribir k v) := by
  unfold bitsContados at hk
  unfold editarBloqueEnBitmap
  rw [he]
  exact if_pos (by omega)

theorem obtenerPrimerBloqueLibre_encuentra (hbit : m.primerBitLibre = some k)
    (hk : k < 4294967296) :
    obtenerPrimerBloqueLibre m = (some (i32 (k - m.inicio)), m.escribir k true) := by
  have hlt := (primerBitLibre_eq_some.mp hbit).2.1.trans_le m.bitsBuscados_le
  have he : u32 (u32 ((k : ℤ) - m.inicio) + m.inicio) = k := by
    rw [u32_add, sub_add_cancel, u32_natCast_of_lt hk]
  rw [obtenerPrimerBloqueLibre, Op.get_bind, id_eq, hbit]
  exact (Op.bind_some (editarBloqueEnBitmap_apply hlt he true)).trans (Op.pure_apply _ _)

/-- With a clear bit to be got to, the lowest one is found. -/
theorem primerBitLibre_de_alcance (hk : IsLeast (m.alcance : Set ℕ) k) :
    m.primerBitLibre = some k := by
  obtain ⟨⟨hlt, hfs⟩, hcero⟩ := mem_alcance.mp hk.1
  refine primerBitLibre_eq_some.mpr ⟨hcero, hlt, ?_⟩
  intro j hj
  by_contra hne
  have hmem : j ∈ m.alcance :=
    mem_alcance.mpr ⟨⟨hj.trans hlt, hj.trans hfs⟩, Bool.not_eq_true _ ▸ hne⟩
  exact absurd (hk.2 hmem) (Nat.not_le_of_lt hj)

theorem obtenerPrimerBloqueLibre_lleno (hvacio : m.alcance = ∅)
    (hbusca : m.bitsBuscados ≤ m.header.fsBlocks) :
    obtenerPrimerBloqueLibre m = (some (-1), m) := by
  have hnada : m.primerBitLibre = none := by
    rcases hbit : m.primerBitLibre with _ | k
    · rfl
    · obtain ⟨hcero, hlt, _⟩ := primerBitLibre_eq_some.mp hbit
      have hmem : k ∈ m.alcance := mem_alcance.mpr ⟨⟨hlt, hlt.trans_le hbusca⟩, hcero⟩
      rw [hvacio] at hmem
      exact absurd hmem (Finset.notMem_empty k)
  rw [obtenerPrimerBloqueLibre, Op.get_bind, id_eq, hnada]
  rfl

/-- With every block taken the search goes on past the last of them. -/
theorem primerBitLibre_pasado (h : Valido m) (hvacio : m.alcance = ∅)
    (hpasa : m.header.fsBlocks < m.bitsBuscados) :
    m.primerBitLibre = some m.header.fsBlocks := by
  refine primerBitLibre_eq_some.mpr
    ⟨h.altos_cache le_rfl (hpasa.trans_le m.bitsBuscados_le), hpasa, ?_⟩
  intro j hj
  by_contra hne
  have hmem : j ∈ m.alcance :=
    mem_alcance.mpr ⟨⟨hj.trans hpasa, hj⟩, Bool.not_eq_true _ ▸ hne⟩
  rw [hvacio] at hmem
  exact Finset.notMem_empty j hmem

theorem obtenerPrimerBloqueLibre_pasado (h : Valido m) (hvacio : m.alcance = ∅)
    (hpasa : m.header.fsBlocks < m.bitsBuscados) : obtenerPrimerBloqueLibre m =
      (some (i32 m.header.dataBlocks), m.escribir m.header.fsBlocks true) := by
  have hsuma := h.suma
  rw [obtenerPrimerBloqueLibre_encuentra (primerBitLibre_pasado h hvacio hpasa) h.chico]
  congr 3
  omega

theorem obtenerPrimerBloqueLibre_toma (h : Valido m) (hk : IsLeast (m.alcance : Set ℕ) k) :
    obtenerPrimerBloqueLibre m = (some (i32 (k - m.inicio)), m.escribir k true) ∧
      k < m.bitsContados ∧ Valido (m.escribir k true) := by
  obtain ⟨⟨hlt, hfs⟩, _⟩ := mem_alcance.mp hk.1
  have hcontado := hlt.trans_le m.bitsBuscados_le
  exact ⟨obtenerPrimerBloqueLibre_encuentra (primerBitLibre_de_alcance hk) (hfs.trans h.chico),
    hcontado, h.escribir hcontado (h.inicio_le hk.1) hfs true⟩

/-- The calls take the clear bits that are got to, the lowest one each time. -/
theorem handsOut (H : OsadaHeader) : HandsOut obtenerPrimerBloqueLibre
    (fun m => Valido m ∧ m.header = H) alcance
    (fun k => i32 (k - obtenerInicioTablaBloques H)) where
  takes m hm hne := by
    obtain ⟨h, rfl⟩ := hm
    have hleast : IsLeast (m.alcance : Set ℕ) (m.alcance.min' hne) := m.alcance.isLeast_min' hne
    obtain ⟨hcall, hcontado, hvalido⟩ := obtenerPrimerBloqueLibre_toma h hleast
    exact ⟨_, _, hcall, hleast, alcance_escribir h hcontado, hvalido, rfl⟩

end Llamadas

def hasta (h : OsadaHeader) (t : ℕ) : MapaDeBits where
  header := h
  cache i := primerosBits (t - i * 8)
  disco i := primerosBits (t - i * 8)

section Hasta
variable {h : OsadaHeader} {t : ℕ}

theorem bit_hasta (h : OsadaHeader) (t k : ℕ) : bit (hasta h t).disco k = decide (k < t) :=
  bit_primerosBits t k

theorem valido_hasta (hsuma : obtenerInicioTablaBloques h + h.dataBlocks = h.fsBlocks)
    (halcanza : h.fsBlocks ≤ h.bitmapBlocks * 512) (hchico : h.fsBlocks < 4294967296)
    (hlo : obtenerInicioTablaBloques h ≤ t) (hhi : t ≤ h.fsBlocks) : Valido (hasta h t) where
  suma := hsuma
  alcanza := halcanza
  chico := hchico
  bajos k hk := by
    rw [bit_hasta]
    exact decide_eq_true (Nat.lt_of_lt_of_le hk hlo)
  altos k hk _ := by
    rw [bit_hasta]
    exact decide_eq_false (Nat.not_lt_of_le (hhi.trans hk))
  iguales _ _ := rfl

theorem ceros_hasta {n : ℕ} (hn : n ≤ t) : ceros (hasta h t).cache n = ∅ := by
  apply Finset.eq_empty_of_forall_notMem
  intro k hk
  obtain ⟨hlt, hcero⟩ := mem_ceros.mp hk
  exact of_decide_eq_false ((bit_hasta h t k).symm.trans hcero) (hlt.trans_le hn)

end Hasta

section Cumple
variable {m : MapaDeBits} {k b : ℕ}

theorem mem_libres (h : Valido m) (hfs : m.header.fsBlocks ≤ m.bitsContados) :
    b ∈ m.libres ↔ m.inicio + b ∈ ceros m.cache m.header.fsBlocks := by
  have hsuma := h.suma
  rw [libres, Finset.mem_filter, Finset.mem_range, mem_ceros]
  constructor
  · rintro ⟨hb, hcero⟩
    exact ⟨by omega, (h.bit_cache (by omega)).trans hcero⟩
  · rintro ⟨hb, hcero⟩
    exact ⟨by omega, (h.bit_cache (by omega)).symm.trans hcero⟩

namespace Concuerda

/-- The search gets to every free block. -/
theorem alcance_eq (c : Concuerda m) (h : Valido m) :
    m.alcance = ceros m.cache m.header.fsBlocks := by
  have hcuenta := c.cuenta
  ext k
  rw [mem_alcance, mem_ceros]
  constructor
  · rintro ⟨⟨_, hfs⟩, hcero⟩
    exact ⟨hfs, hcero⟩
  · rintro ⟨hfs, hcero⟩
    have hinicio : m.inicio ≤ k := by
      by_contra hbajo
      rw [h.bit_cache (by omega), h.bajos k (by omega)] at hcero
      exact absurd hcero (by decide)
    have hadd : m.inicio + (k - m.inicio) = k := by omega
    have hlibre : k - m.inicio ∈ m.libres :=
      (mem_libres h hcuenta).mpr (mem_ceros.mpr ⟨by omega, by rw [hadd]; exact hcero⟩)
    have hlt := (c.alcanzados _ hlibre).1
    exact ⟨⟨by omega, hfs⟩, hcero⟩

theorem mem_libres_iff (c : Concuerda m) (h : Valido m) :
    b ∈ m.libres ↔ m.inicio + b ∈ m.alcance := by
  rw [c.alcance_eq h]
  exact mem_libres h c.cuenta

theorem libre_de_alcance (c : Concuerda m) (h : Valido m) (hk : k ∈ m.alcance) :
    ∃ b ∈ m.libres, k = m.inicio + b := by
  have hadd : m.inicio + (k - m.inicio) = k := Nat.add_sub_of_le (h.inicio_le hk)
  exact ⟨k - m.inicio, (c.mem_libres_iff h).mpr (by rwa [hadd]), hadd.symm⟩

theorem obtenerBloquesLibres_eq (c : Concuerda m) (h : Valido m) :
    m.obtenerBloquesLibres = m.alcance.card := by
  rw [h.obtenerBloquesLibres_eq, c.alcance_eq h, min_eq_right c.cuenta,
    Nat.sub_eq_zero_of_le c.cuenta, Nat.add_zero]

theorem numero (c : Concuerda m) (hb : b ∈ m.libres) :
    i32 (((m.inicio + b : ℕ) : ℤ) - m.inicio) = b := by
  rw [Nat.cast_add, add_sub_cancel_left]
  exact i32_natCast_of_lt (c.alcanzados b hb).2

theorem asignaBien (c : Concuerda m) (h : Valido m) : AsignaBien m where
  hayLibres hpos := by
    rw [c.obtenerBloquesLibres_eq h] at hpos
    have hleast := m.alcance.isLeast_min' (Finset.card_pos.mp hpos)
    obtain ⟨b, hb, hk⟩ := c.libre_de_alcance h hleast.1
    rw [hk] at hleast
    obtain ⟨hcall, hcontado, hvalido⟩ := obtenerPrimerBloqueLibre_toma h hleast
    rw [c.numero hb] at hcall
    refine ⟨b, _, hcall, ⟨hb, ?_⟩, h.marca_escribir hcontado true, ?_⟩
    · intro b' hb'
      have hle := hleast.2 ((c.mem_libres_iff h).mp hb')
      omega
    · rw [c.obtenerBloquesLibres_eq h, ← Finset.card_erase_of_mem hleast.1, c.alcance_eq h,
        ← ceros_escribir h hcontado, hvalido.obtenerBloquesLibres_eq]
      change (ceros _ (min m.bitsContados m.header.fsBlocks)).card +
        (m.header.fsBlocks - m.bitsContados) = _
      rw [min_eq_right c.cuenta, Nat.sub_eq_zero_of_le c.cuenta, Nat.add_zero]
  lleno hcero := by
    rw [c.obtenerBloquesLibres_eq h] at hcero
    exact obtenerPrimerBloqueLibre_lleno (Finset.card_eq_zero.mp hcero) c.busca

/-- In a map where nothing is free, a block given back is the one that is handed out next. -/
theorem devuelve (c : Concuerda m) {m' : MapaDeBits} (h' : Valido m')
    (hheader : m'.header = m.header) (hvacio : m'.alcance = ∅) (hb : b ∈ m.libres) :
    ∃ m₁ m₂, editarBloqueEnBitmap b false m' = (some 0, m₁) ∧
      Marca m' m₁ (m.inicio + b) false ∧ obtenerPrimerBloqueLibre m₁ = (some (b : ℤ), m₂) ∧
      obtenerPrimerBloqueLibre m₂ = (some (-1), m₂) := by
  have hinicio : m'.inicio = m.inicio := congrArg obtenerInicioTablaBloques hheader
  have hbuscados := bitsBuscados_congr hheader
  have hlt : m'.inicio + b < m'.bitsBuscados := by
    rw [hinicio, hbuscados]
    exact (c.alcanzados b hb).1
  have hfs : m'.inicio + b < m'.header.fsBlocks := by
    have hmem : b < m.header.dataBlocks := Finset.mem_range.mp (Finset.mem_filter.mp hb).1
    have hsuma := h'.suma
    rw [hheader] at hsuma ⊢
    omega
  have hcontado := hlt.trans_le m'.bitsBuscados_le
  have he : u32 ((b : ℤ) + m'.inicio) = m'.inicio + b := by
    have hchico := h'.chico
    rw [← Nat.cast_add, u32_natCast_of_lt (by omega)]
    omega
  have h₁ : Valido (m'.escribir (m'.inicio + b) false) :=
    h'.escribir hcontado (Nat.le_add_right _ _) hfs false
  have halcance : (m'.escribir (m'.inicio + b) false).alcance = {m'.inicio + b} := by
    rw [alcance_devolver h' hlt hfs, hvacio, insert_empty_eq]
  have hleast : IsLeast ((m'.escribir (m'.inicio + b) false).alcance : Set ℕ) (m'.inicio + b) := by
    rw [halcance, Finset.coe_singleton]
    exact isLeast_singleton
  obtain ⟨hcall, hcontado₁, h₂⟩ := obtenerPrimerBloqueLibre_toma h₁ hleast
  have hnumero := c.numero hb
  rw [← hinicio] at hnumero
  have hvacio₂ := alcance_escribir h₁ hcontado₁
  rw [halcance, Finset.erase_singleton] at hvacio₂
  refine ⟨_, _, editarBloqueEnBitmap_apply hcontado he false, ?_,
    hcall.trans (congrArg (fun r => (some r, _)) hnumero),
    obtenerPrimerBloqueLibre_lleno hvacio₂ ?_⟩
  · rw [← hinicio]
    exact h'.marca_escribir hcontado false
  · change m'.bitsBuscados ≤ m'.header.fsBlocks
    rw [hbuscados, hheader]
    exact c.busca

theorem pideBien (c : Concuerda m) (h : Valido m) : PideBien m := by
  obtain ⟨ks, m', hrun, htakes, hlen, h', hheader⟩ := (handsOut m.header).times ⟨h, rfl⟩ le_rfl
  have hvacio := htakes.empties hlen
  have hlibre : ∀ k ∈ ks, ∃ b ∈ m.libres, k = m.inicio + b := fun k hk =>
    c.libre_de_alcance h (htakes.mem_iff.mpr (Or.inl hk))
  refine ⟨ks.map fun k => k - m.inicio, m', ?_, ?_, ?_, ?_, ?_⟩
  · rw [c.obtenerBloquesLibres_eq h, hrun, List.map_map]
    refine congrArg (fun bs => (some bs, m')) (List.map_congr_left ?_)
    intro k hk
    obtain ⟨b, hb, rfl⟩ := hlibre k hk
    rw [Function.comp_apply, Nat.add_sub_cancel_left]
    exact c.numero hb
  · apply htakes.nodup.map_on
    intro k hk k' hk' heq
    obtain ⟨b, _, rfl⟩ := hlibre k hk
    obtain ⟨b', _, rfl⟩ := hlibre k' hk'
    omega
  · intro b hb
    obtain ⟨k, hk, rfl⟩ := List.mem_map.mp hb
    obtain ⟨b', hb', rfl⟩ := hlibre k hk
    rwa [Nat.add_sub_cancel_left]
  · apply obtenerPrimerBloqueLibre_lleno hvacio
    rw [hheader, bitsBuscados_congr hheader]
    exact c.busca
  · intro b hb
    obtain ⟨k, hk, rfl⟩ := List.mem_map.mp hb
    obtain ⟨b', hb', rfl⟩ := hlibre k hk
    rw [Nat.add_sub_cancel_left]
    exact c.devuelve h' hheader hvacio hb'

end Concuerda

/-- The bits past the blocks of the disk, when the search gets to them, are handed out too. -/
theorem PideBien.busca (hp : PideBien m) (h : Valido m) :
    m.bitsBuscados ≤ m.header.fsBlocks := by
  by_contra hpasa
  have hpasa' : m.header.fsBlocks < m.bitsBuscados := Nat.lt_of_not_le hpasa
  have hcuenta := hpasa'.trans_le m.bitsBuscados_le
  obtain ⟨bs, m', hbs, _, _, hfin, _⟩ := hp
  obtain ⟨ks, m₁, hks, htakes, hlen, h₁, hheader⟩ := (handsOut m.header).times ⟨h, rfl⟩ le_rfl
  have hcuantos : m.obtenerBloquesLibres = m.alcance.card := by
    rw [h.obtenerBloquesLibres_eq, alcance, min_eq_right hpasa'.le, min_eq_right hcuenta.le,
      Nat.sub_eq_zero_of_le hcuenta.le, Nat.add_zero]
  rw [hcuantos, hks] at hbs
  obtain ⟨_, rfl⟩ := Op.some_inj hbs
  rw [← bitsBuscados_congr hheader, ← hheader] at hpasa'
  rw [obtenerPrimerBloqueLibre_pasado h₁ (htakes.empties hlen) hpasa'] at hfin
  have hcontado := hpasa'.trans_le m₁.bitsBuscados_le
  have hbit := (h₁.marca_escribir hcontado true).cache m₁.header.fsBlocks
  rw [(Op.some_inj hfin).2, h₁.altos_cache le_rfl hcontado, if_pos rfl] at hbit
  exact Bool.false_ne_true hbit

/-- Calls past the bits that the search gets to answer -1. -/
theorem PideBien.cuantos (hp : PideBien m) (h : Valido m) :
    m.obtenerBloquesLibres ≤ m.alcance.card := by
  have hbusca := hp.busca h
  by_contra hmas
  obtain ⟨bs, m', hbs, _⟩ := hp
  obtain ⟨ks, m₁, hks, htakes, hlen, h₁, hheader⟩ := (handsOut m.header).times ⟨h, rfl⟩ le_rfl
  obtain ⟨n, hn⟩ := Nat.exists_eq_add_of_lt (Nat.lt_of_not_le hmas)
  rw [← hheader, ← bitsBuscados_congr hheader] at hbusca
  have hlleno := obtenerPrimerBloqueLibre_lleno (htakes.empties hlen) hbusca
  rw [hn, Nat.add_assoc, Op.times_add hks (Op.times_same hlleno (n + 1))] at hbs
  have hmem : (-1 : ℤ) ∈ bs.map fun b : ℕ => (b : ℤ) := by
    rw [← (Op.some_inj hbs).1]
    simp
  obtain ⟨b, _, hb⟩ := List.mem_map.mp hmem
  omega

theorem PideBien.concuerda (hp : PideBien m) (h : Valido m) : Concuerda m := by
  have hbusca := hp.busca h
  have hcuantos := hp.cuantos h
  have hsub : m.alcance ⊆ ceros m.cache (min m.bitsContados m.header.fsBlocks) := by
    intro k hk
    obtain ⟨⟨hlt, hfs⟩, hcero⟩ := mem_alcance.mp hk
    exact mem_ceros.mpr ⟨lt_min (hlt.trans_le m.bitsBuscados_le) hfs, hcero⟩
  have hle := Finset.card_le_card hsub
  rw [h.obtenerBloquesLibres_eq] at hcuantos
  have hcuenta : m.header.fsBlocks ≤ m.bitsContados := by omega
  rw [min_eq_right hcuenta] at hsub hcuantos
  have heq := Finset.eq_of_subset_of_card_le hsub (by omega)
  refine ⟨hcuenta, hbusca, ?_⟩
  intro b hb
  have halcance : m.inicio + b ∈ m.alcance := heq ▸ (mem_libres h hcuenta).mp hb
  refine ⟨(mem_alcance.mp halcance).1.1, ?_⟩
  obtain ⟨bs, m', hbs, _⟩ := hp
  obtain ⟨ks, m₁, hks, htakes, hlen, _⟩ := (handsOut m.header).times ⟨h, rfl⟩ le_rfl
  have hcard : m.obtenerBloquesLibres = m.alcance.card := by
    rw [h.obtenerBloquesLibres_eq, heq, min_eq_right hcuenta, Nat.sub_eq_zero_of_le hcuenta,
      Nat.add_zero]
  rw [hcard, hks] at hbs
  have hks' : m.inicio + b ∈ ks := by
    rcases htakes.mem_iff.mp halcance with hmem | hmem
    · exact hmem
    · rw [htakes.empties hlen] at hmem
      exact absurd hmem (Finset.notMem_empty _)
  have hdada := List.mem_map_of_mem (f := fun k : ℕ => i32 (k - m.inicio)) hks'
  rw [show ks.map (fun k : ℕ => i32 (k - m.inicio)) = _ from (Op.some_inj hbs).1] at hdada
  obtain ⟨b', _, hb'⟩ := List.mem_map.mp hdada
  rw [Nat.cast_add, add_sub_cancel_left] at hb'
  have hchico : b < 4294967296 := by
    have hlt := (mem_alcance.mp halcance).1.2.trans h.chico
    omega
  by_contra hgrande
  unfold i32 at hb'
  split at hb' <;> omega

/-- On a map that fits in an `int` that is: its last bit is the last block of the disk. -/
theorem concuerda_iff (h : Valido m) (hmapa : m.header.bitmapBlocks * 64 < 2147483648) :
    Concuerda m ↔ m.header.fsBlocks = m.header.bitmapBlocks * 512 ∧
      ∀ b ∈ m.libres, b < 2147483648 := by
  have htamanio : m.tamanio = m.header.bitmapBlocks * 64 := by
    have hcast : ((m.header.bitmapBlocks : ℤ) * 64) = ((m.header.bitmapBlocks * 64 : ℕ) : ℤ) := by
      simp
    rw [tamanio, tamanioBitMapEnBytes, hcast]
    exact u32_natCast_of_lt (by omega)
  have hbuscados : m.bitsBuscados = m.header.bitmapBlocks * 512 := by
    rw [bitsBuscados, htamanio, i32_natCast_of_lt hmapa, Int.toNat_natCast, Nat.mul_assoc]
  have hcontados : m.bitsContados = m.header.bitmapBlocks * 512 := by
    rw [bitsContados, htamanio, Nat.mul_assoc]
  have halcanza := h.alcanza
  constructor
  · rintro ⟨_, hbusca, halcanzados⟩
    exact ⟨by omega, fun b hb => (halcanzados b hb).2⟩
  · rintro ⟨hfs, hchicos⟩
    refine ⟨by omega, by omega, fun b hb => ⟨?_, hchicos b hb⟩⟩
    have hmem : b < m.header.dataBlocks := Finset.mem_range.mp (Finset.mem_filter.mp hb).1
    have hsuma := h.suma
    omega

end Cumple

/-- A header whose map has exactly the bits of its 1536 blocks, 476 of them of data. -/
def headerJusto : OsadaHeader where
  fsBlocks := 1536
  bitmapBlocks := 3
  inicioTablaAsignaciones := 1028
  dataBlocks := 476

end MapaDeBits

section Servidor
variable {s : Pokedex}

/-- The map of a server whose copy is that of its disk. -/
def Pokedex.mapa (s : Pokedex) : MapaDeBits where
  header := s.disco.header
  cache := s.disco.bitmap
  disco := s.disco.bitmap

theorem marcarBit_mapa {k : ℕ} (hk : k / 8 < s.disco.header.bitmapBlocks * 64) (v : Bool) :
    (s.marcarBit k v).mapa = s.mapa.escribir k v := by
  simp only [Pokedex.mapa, Pokedex.marcarBit, Pokedex.escribir_disco, Disco.aplicar, hk, if_true,
    MapaDeBits.escribir]

theorem editarBloqueEnBitmap_mapa {nBloque : ℕ}
    (hk : u32 (nBloque + s.disco.inicio) / 8 < tamanioBitMapEnBytes s.disco.header) (v : Bool) :
    MapaDeBits.editarBloqueEnBitmap nBloque v s.mapa =
      ((editarBloqueEnBitmap nBloque v s).1, (editarBloqueEnBitmap nBloque v s).2.mapa) := by
  have hle : tamanioBitMapEnBytes s.disco.header ≤ s.disco.header.bitmapBlocks * 64 := by
    unfold tamanioBitMapEnBytes u32
    omega
  have hcall : MapaDeBits.editarBloqueEnBitmap nBloque v s.mapa =
      (some 0, s.mapa.escribir (u32 (nBloque + s.disco.inicio)) v) := if_pos hk
  rw [hcall, ← marcarBit_mapa (hk.trans_le hle)]
  rfl

end Servidor

end TpSo.Osada
