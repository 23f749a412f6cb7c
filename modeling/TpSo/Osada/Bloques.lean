import TpSo.Osada.BienFormado
import TpSo.Osada.Datos

/-!
# Taking and giving back blocks

The steps that writing, truncating and deleting share: a free block becomes the first block
of a file or is linked after its last one, and a list of blocks is marked free. `Contenido`
says that all a run wrote belongs to the blocks of one file.
-/

namespace TpSo.Osada

open Function (update)

/-- Where a write belongs: `propio` are the data blocks it may touch. -/
def EnSuLugar (h : OsadaHeader) (propio : ℕ → Prop) : Escritura → Prop
  | .bitmap numeroByte _ => numeroByte < h.bitmapBlocks * 64
  | .asignacion posicion _ => posicion < h.dataBlocks
  | .descriptor posicion _ => posicion < 2048
  | .datos desde bytes => ∀ k < bytes.length, ∃ b, propio b ∧
      (obtenerInicioTablaBloques h + b) * 64 ≤ desde + k ∧
      desde + k < (obtenerInicioTablaBloques h + b) * 64 + 64

theorem EnSuLugar.mono {h : OsadaHeader} {P Q : ℕ → Prop} (hpq : ∀ b, P b → Q b) {w : Escritura}
    (hw : EnSuLugar h P w) : EnSuLugar h Q w := by
  cases w with
  | bitmap => exact hw
  | asignacion => exact hw
  | descriptor => exact hw
  | datos desde bytes =>
    intro k hk
    obtain ⟨b, hb, hlo, hhi⟩ := hw k hk
    exact ⟨b, hpq b hb, hlo, hhi⟩

/-- The run from `s` to `s'` touched only cells and data blocks in `P`, and bits. -/
structure Contenido (P : ℕ → Prop) (s s' : Pokedex) : Prop where
  header : s'.disco.header = s.disco.header
  archivos : s'.disco.archivos = s.disco.archivos
  asignaciones : ∀ c, ¬ P c → s'.disco.asignaciones c = s.disco.asignaciones c
  datos : ∀ k, (∀ b, P b → ¬ ((s.disco.inicio + b) * 64 ≤ k ∧
    k < (s.disco.inicio + b) * 64 + 64)) → s'.disco.datos k = s.disco.datos k
  escrituras : ∃ ws, s'.escrituras = s.escrituras ++ ws ∧
    ∀ w ∈ ws, EnSuLugar s.disco.header P w
  otorgadas : s'.entradasLibresOtorgadas = s.entradasLibresOtorgadas
  mutex : s'.obtenerEntradaArchivoLibreMutex = s.obtenerEntradaArchivoLibreMutex

namespace Contenido

variable {P Q : ℕ → Prop} {s s' s'' : Pokedex}

theorem refl (P : ℕ → Prop) (s : Pokedex) : Contenido P s s :=
  ⟨rfl, rfl, fun _ _ => rfl, fun _ _ => rfl, ⟨[], by simp⟩, rfl, rfl⟩

theorem mono (hpq : ∀ b, P b → Q b) (h : Contenido P s s') : Contenido Q s s' where
  header := h.header
  archivos := h.archivos
  asignaciones c hc := h.asignaciones c fun hp => hc (hpq c hp)
  datos k hk := h.datos k fun b hb => hk b (hpq b hb)
  escrituras := by
    obtain ⟨ws, he, hws⟩ := h.escrituras
    exact ⟨ws, he, fun w hw => (hws w hw).mono hpq⟩
  otorgadas := h.otorgadas
  mutex := h.mutex

theorem inicio (h : Contenido P s s') : s'.disco.inicio = s.disco.inicio := by
  exact inicio_congr h.header

theorem trans (h : Contenido P s s') (h' : Contenido P s' s'') : Contenido P s s'' where
  header := h'.header.trans h.header
  archivos := h'.archivos.trans h.archivos
  asignaciones c hc := (h'.asignaciones c hc).trans (h.asignaciones c hc)
  datos k hk := (h'.datos k (by simpa only [h.inicio] using hk)).trans (h.datos k hk)
  escrituras := by
    obtain ⟨ws, he, hws⟩ := h.escrituras
    obtain ⟨ws', he', hws'⟩ := h'.escrituras
    refine ⟨ws ++ ws', by rw [he', he, List.append_assoc], fun w hw => ?_⟩
    rcases List.mem_append.mp hw with hw | hw
    · exact hws w hw
    · simpa only [h.header] using hws' w hw
  otorgadas := h'.otorgadas.trans h.otorgadas
  mutex := h'.mutex.trans h.mutex

theorem marcarBit {k : ℕ} (hk : k < s.disco.header.bitmapBlocks * 64 * 8) (v : Bool) :
    Contenido P s (s.marcarBit k v) where
  header := marcarBit_header s k v
  archivos := marcarBit_archivos s k v
  asignaciones c _ := by rw [marcarBit_asignaciones]
  datos k' _ := by rw [marcarBit_datos]
  escrituras := by
    refine ⟨[_], rfl, fun w hw => ?_⟩
    rw [List.mem_singleton] at hw
    subst hw
    simp only [EnSuLugar]
    omega
  otorgadas := rfl
  mutex := rfl

theorem datos_escritos {desde : ℕ} {bytes : List UInt8}
    (h : EnSuLugar s.disco.header P (.datos desde bytes)) :
    Contenido P s (s.escribir (.datos desde bytes)) where
  header := rfl
  archivos := rfl
  asignaciones _ _ := rfl
  datos k hk := by
    apply aplicar_datos_of_outside
    rintro ⟨hlo, hhi⟩
    obtain ⟨b, hb, hlo', hhi'⟩ := h (k - desde) (by omega)
    have hadd : desde + (k - desde) = k := by omega
    rw [hadd] at hlo' hhi'
    exact hk b hb ⟨hlo', hhi'⟩
  escrituras := ⟨[_], rfl, by simpa using h⟩
  otorgadas := rfl
  mutex := rfl

theorem asignacion {P : ℕ → Prop} {p : ℕ} (hp : p < s.disco.header.dataBlocks) (hP : P p) (v : ℕ) :
    Contenido P s (s.escribir (.asignacion p v)) where
  header := aplicar_header _ _
  archivos := aplicar_asignacion_archivos _ _ _
  asignaciones c hc := by
    have hcp : c ≠ p := fun he => hc (he ▸ hP)
    rw [Pokedex.escribir_disco, aplicar_asignacion_asignaciones _ hp, Function.update_of_ne hcp]
  datos k _ := by rw [Pokedex.escribir_disco, aplicar_asignacion_datos]
  escrituras := ⟨[_], rfl, by simpa [EnSuLugar] using hp⟩
  otorgadas := rfl
  mutex := rfl

end Contenido

/-! ## The bitmap and the allocation table -/

/-- Writes the cell on disk and in the private copy of the table. The copy has `dataBlocks` cells and
nobody looks at the index: past them it is the memory after the copy that is read and written, but
at the index of no block, 16 GiB away, there is none. -/
def asignarSiguienteBloque (posicion valor : ℕ) (asignaciones : ℕ → ℕ) :
    Op Pokedex (ℕ → ℕ) := fun s =>
  (if posicion = uint32Max then none else some (update asignaciones posicion valor),
    s.escribir (.asignacion posicion valor))

/-- A block for a file that has none: it becomes its first block and its last one. -/
def pedirPrimerBloque (asignaciones : ℕ → ℕ) : Op Pokedex (ℕ × (ℕ → ℕ)) := do
  let bloque ← obtenerPrimerBloqueLibre
  let asignaciones ← asignarSiguienteBloque (u32 bloque) uint32Max asignaciones
  pure (u32 bloque, asignaciones)

/-- The first block of the file, given to it if it has none. -/
def primerBloque (firstBlock : ℕ) (asignaciones : ℕ → ℕ) : Op Pokedex (ℕ × (ℕ → ℕ)) :=
  if firstBlock = uint32Max then pedirPrimerBloque asignaciones
  else pure (firstBlock, asignaciones)

def pedirBloqueSiguiente (ultimo : ℕ) (asignaciones : ℕ → ℕ) : Op Pokedex (ℕ × (ℕ → ℕ)) := do
  let bloque ← obtenerPrimerBloqueLibre
  let asignaciones ← asignarSiguienteBloque ultimo (u32 bloque) asignaciones
  let asignaciones ← asignarSiguienteBloque (u32 bloque) uint32Max asignaciones
  pure (u32 bloque, asignaciones)

def liberarBloque (asignaciones : ℕ → ℕ) (bloque : ℕ) : Op Pokedex ℕ := do
  let _ ← editarBloqueEnBitmap bloque false
  pure (asignaciones bloque)

/-- `while (b != UINT32_MAX) { editarBloqueEnBitmap(b, 0); b = asignaciones[b]; }`. A walk of
more cells than there are numbers of blocks goes round a cycle, for ever. -/
def liberarBloques (asignaciones : ℕ → ℕ) (desde : ℕ) : Op Pokedex ℕ :=
  Op.whileDo (fun bloque => bloque ≠ uint32Max) (liberarBloque asignaciones) uint32Max desde

theorem asignarSiguienteBloque_apply {p : ℕ} (hp : p ≠ uint32Max) (v : ℕ) (asig : ℕ → ℕ)
    (s : Pokedex) : asignarSiguienteBloque p v asig s =
      (some (update asig p v), s.escribir (.asignacion p v)) := by
  rw [asignarSiguienteBloque, if_neg hp]

theorem editarBloqueEnBitmap_apply {s : Pokedex} (h : Medido s.disco) {b : ℕ}
    (hb : b < s.disco.header.dataBlocks) (v : Bool) :
    editarBloqueEnBitmap b v s = (some 0, s.marcarBit (s.disco.inicio + b) v) := by
  have hsum := h.suma
  have hch := h.chico
  have hcast : ((b : ℤ) + (s.disco.inicio : ℤ)) = ((s.disco.inicio + b : ℕ) : ℤ) := by
    omega
  rw [editarBloqueEnBitmap, show (b : ℤ) + (s.disco.inicio : ℤ) =
    ((s.disco.inicio + b : ℕ) : ℤ) from hcast, u32_natCast_of_lt (by omega)]

/-- With free blocks the lowest of them is returned and its bit set. -/
theorem obtenerPrimerBloqueLibre_apply {s : Pokedex} (h : Medido s.disco)
    (hl : 0 < libres s.disco) :
    ∃ b ∈ bloquesLibres s.disco, (∀ c ∈ bloquesLibres s.disco, b ≤ c) ∧
      obtenerPrimerBloqueLibre s = (some (b : ℤ), s.marcarBit (s.disco.inicio + b) true) := by
  obtain ⟨b, hb, hfind, hmin⟩ := h.primerBitLibre_eq hl
  have hlt := (mem_bloquesLibres.mp hb).1
  have hsum := h.suma
  have hch := h.chico
  have hres : (((s.disco.inicio + b : ℕ) : ℤ) - (s.disco.inicio : ℤ)) = (b : ℤ) := by omega
  refine ⟨b, hb, hmin, ?_⟩
  rw [obtenerPrimerBloqueLibre, Op.get_bind, hfind]
  simp only [hres]
  rw [u32_natCast_of_lt (by omega), i32_natCast_of_lt (by omega),
    Op.bind_some (editarBloqueEnBitmap_apply h hlt true), Op.pure_apply]

theorem Medido.marcarBit {s : Pokedex} (h : Medido s.disco) {k : ℕ}
    (hk : k < s.disco.header.bitmapBlocks * 64 * 8) (hle : s.disco.inicio ≤ k) (v : Bool) :
    Medido (s.marcarBit k v).disco where
  suma := by simpa only [Disco.inicio, marcarBit_header] using h.suma
  alcanza := by simpa only [marcarBit_header] using h.alcanza
  chico := by simpa only [marcarBit_header] using h.chico
  bajos j hj := by
    have hj' : j < s.disco.inicio := hj
    rw [bit_marcarBit s hk, if_neg (by omega)]
    exact h.bajos j hj'

theorem Mapeado.marcarBit {s : Pokedex} (h : Mapeado s.disco) {b : ℕ}
    (hb : b < s.disco.header.dataBlocks) (v : Bool) :
    Mapeado (s.marcarBit (s.disco.inicio + b) v).disco where
  toMedido := h.toMedido.marcarBit (h.lt_bits hb) (Nat.le_add_right _ _) v
  altos k hlo hhi := by
    simp only [marcarBit_header] at hlo hhi
    have hsum := h.suma
    rw [bit_marcarBit s (h.lt_bits hb), if_neg (by omega)]
    exact h.altos k hlo hhi

theorem bit_marcarBit_data {s : Pokedex} (h : Medido s.disco) {b : ℕ}
    (hb : b < s.disco.header.dataBlocks) (v : Bool) (c : ℕ) :
    bit (s.marcarBit (s.disco.inicio + b) v).disco.bitmap (s.disco.inicio + c) =
      if c = b then v else bit s.disco.bitmap (s.disco.inicio + c) := by
  rw [bit_marcarBit s (h.lt_bits hb)]
  simp only [Nat.add_left_cancel_iff]

theorem bloquesLibres_marcarBit {s : Pokedex} (h : Medido s.disco) {b : ℕ}
    (hb : b < s.disco.header.dataBlocks) (v : Bool) :
    bloquesLibres (s.marcarBit (s.disco.inicio + b) v).disco =
      if v then (bloquesLibres s.disco).erase b else insert b (bloquesLibres s.disco) := by
  have hbit := bit_marcarBit_data h hb v
  ext c
  rw [mem_bloquesLibres, marcarBit_inicio, marcarBit_header, hbit c]
  cases v with
  | true =>
    rw [if_pos rfl, Finset.mem_erase, mem_bloquesLibres]
    by_cases hcb : c = b <;> simp [hcb]
  | false =>
    rw [if_neg Bool.false_ne_true, Finset.mem_insert, mem_bloquesLibres]
    by_cases hcb : c = b
    · simp [hcb, hb]
    · simp [hcb]

theorem Ocupacion.congr {d d' : Disco} {raiz : ℕ → ℕ} {cad : ℕ → List ℕ}
    (h : Ocupacion d raiz cad) (hheader : d'.header = d.header) (hbitmap : d'.bitmap = d.bitmap)
    (hasig : d'.asignaciones = d.asignaciones) : Ocupacion d' raiz cad where
  toMapeado := h.toMapeado.congr hheader hbitmap
  fat := hasig ▸ h.fat
  enRango i b hb := hheader ▸ h.enRango i b hb
  bits b hb := by
    rw [hheader] at hb
    rw [inicio_congr hheader, hbitmap]
    exact h.bits b hb

theorem Ocupacion.free_of_mem {d : Disco} {raiz : ℕ → ℕ} {cad : ℕ → List ℕ}
    (h : Ocupacion d raiz cad) {b : ℕ} (hb : b ∈ bloquesLibres d) (i : ℕ) : b ∉ cad i := by
  obtain ⟨hlt, hz⟩ := mem_bloquesLibres.mp hb
  intro hmem
  rw [(h.bits b hlt).mpr ⟨i, hmem⟩] at hz
  simp at hz

theorem Ocupacion.conNuevos {d : Disco} {raiz : ℕ → ℕ} {cad : ℕ → List ℕ}
    (h : Ocupacion d raiz cad) {p k b : ℕ} (hb : b ∈ cad p ++ (libresEnOrden d).take k) :
    b < d.header.dataBlocks := by
  rcases List.mem_append.mp hb with hb | hb
  · exact h.enRango p b hb
  · exact (mem_bloquesLibres.mp (mem_libresEnOrden.mp (List.mem_of_mem_take hb))).1

theorem Ocupacion.raiz_eq {d : Disco} {raiz : ℕ → ℕ} {cad : ℕ → List ℕ}
    (h : Ocupacion d raiz cad) {p : ℕ} : cad p = [] ↔ raiz p = uint32Max :=
  (h.fat.chain p).eq_nil_iff

theorem Ocupacion.length_le {d : Disco} {raiz : ℕ → ℕ} {cad : ℕ → List ℕ}
    (h : Ocupacion d raiz cad) (i : ℕ) : (cad i).length ≤ d.header.dataBlocks := by
  have hsub : (cad i).toFinset ⊆ Finset.range d.header.dataBlocks := by
    intro b hb
    exact Finset.mem_range.mpr (h.enRango i b (List.mem_toFinset.mp hb))
  have hcard := Finset.card_le_card hsub
  rwa [List.toFinset_card_of_nodup (h.fat.chain i).nodup, Finset.card_range] at hcard

theorem exists_mem_update {cad : ℕ → List ℕ} {p b : ℕ} {xs : List ℕ}
    (hxs : ∀ x, x ∈ xs ↔ x ∈ cad p ∨ x = b) (c : ℕ) :
    (∃ i, c ∈ update cad p xs i) ↔ c = b ∨ ∃ i, c ∈ cad i := by
  constructor
  · rintro ⟨i, hc⟩
    by_cases hi : i = p
    · subst hi
      rw [Function.update_self, hxs] at hc
      exact hc.symm.imp_right fun hc => ⟨i, hc⟩
    · rw [Function.update_of_ne hi] at hc
      exact .inr ⟨i, hc⟩
  · rintro (rfl | ⟨i, hc⟩)
    · exact ⟨p, by rw [Function.update_self, hxs]; exact .inr rfl⟩
    · by_cases hi : i = p
      · subst hi
        exact ⟨i, by rw [Function.update_self, hxs]; exact .inl hc⟩
      · exact ⟨i, by rwa [Function.update_of_ne hi]⟩

/-- A free block joins the chain of `p`: what is left to show is that the links are right. -/
theorem Ocupacion.conBloque {s : Pokedex} {raiz : ℕ → ℕ} {cad : ℕ → List ℕ}
    (h : Ocupacion s.disco raiz cad) {b : ℕ} (hb : b ∈ bloquesLibres s.disco)
    (hmin : ∀ c ∈ bloquesLibres s.disco, b ≤ c) (p : ℕ)
    (s' : Pokedex) (raiz' : ℕ → ℕ) (xs : List ℕ) (hheader : s'.disco.header = s.disco.header)
    (hbitmap : s'.disco.bitmap = (s.marcarBit (s.disco.inicio + b) true).disco.bitmap)
    (hxs : ∀ x, x ∈ xs ↔ x ∈ cad p ∨ x = b)
    (hfat : Fat s'.disco.asignaciones uint32Max raiz' (update cad p xs)) :
    Ocupacion s'.disco raiz' (update cad p xs) ∧
      libresEnOrden s.disco = b :: libresEnOrden s'.disco := by
  have hlt := (mem_bloquesLibres.mp hb).1
  have hinicio := inicio_congr hheader
  have hbit := fun c => bit_marcarBit_data h.toMedido hlt true c
  rw [← hbitmap] at hbit
  constructor
  · refine ⟨(h.toMapeado.marcarBit hlt true).congr hheader hbitmap, hfat, ?_, ?_⟩
    · intro i c hc
      rw [hheader]
      rcases (exists_mem_update hxs c).mp ⟨i, hc⟩ with rfl | ⟨j, hj⟩
      · exact hlt
      · exact h.enRango j c hj
    · intro c hc
      rw [hheader] at hc
      rw [hinicio, hbit, exists_mem_update hxs]
      by_cases hcb : c = b
      · simp [hcb]
      · simp [hcb, h.bits c hc]
  · have hfree : bloquesLibres s.disco = insert b (bloquesLibres s'.disco) := by
      ext c
      rw [Finset.mem_insert, mem_bloquesLibres, mem_bloquesLibres, hheader, hinicio, hbit]
      by_cases hcb : c = b
      · subst hcb
        simpa [hlt] using (mem_bloquesLibres.mp hb).2
      · simp [hcb]
    have hnot : b ∉ bloquesLibres s'.disco := by
      simp [mem_bloquesLibres, hinicio, hbit]
    rw [libresEnOrden, hfree, Finset.sort_insert _ _ hnot, libresEnOrden]
    intro c hc
    exact hmin c (hfree ▸ Finset.mem_insert_of_mem hc)

section Pedir
variable {s : Pokedex} {raiz : ℕ → ℕ} {cad : ℕ → List ℕ} {p : ℕ}

/-- From `s` to `s'` the chain of `p` grew by `nuevos`, the lowest free blocks. -/
structure Crecio (raiz : ℕ → ℕ) (cad : ℕ → List ℕ) (p : ℕ) (nuevos : List ℕ)
    (s s' : Pokedex) : Prop where
  ocupacion : Ocupacion s'.disco raiz (update cad p (cad p ++ nuevos))
  reserva : nuevos ++ libresEnOrden s'.disco = libresEnOrden s.disco
  contenido : Contenido (· ∈ cad p ++ nuevos) s s'

namespace Crecio

variable {s' s'' : Pokedex} {nuevos nuevos' : List ℕ}

theorem refl (h : Ocupacion s.disco raiz cad) (p : ℕ) : Crecio raiz cad p [] s s where
  ocupacion := by rwa [List.append_nil, Function.update_eq_self]
  reserva := rfl
  contenido := Contenido.refl _ s

theorem trans {raiz₀ : ℕ → ℕ} (h : Crecio raiz₀ cad p nuevos s s')
    (h' : Crecio raiz (update cad p (cad p ++ nuevos)) p nuevos' s' s'') :
    Crecio raiz cad p (nuevos ++ nuevos') s s'' where
  ocupacion := by
    have ho := h'.ocupacion
    rwa [Function.update_self, Function.update_idem, List.append_assoc] at ho
  reserva := by rw [List.append_assoc, h'.reserva, h.reserva]
  contenido := by
    have hc := h'.contenido
    rw [Function.update_self, List.append_assoc] at hc
    refine Contenido.trans (h.contenido.mono fun b hb => ?_) hc
    rw [← List.append_assoc]
    exact List.mem_append_left _ hb

theorem nuevos_eq (h : Crecio raiz cad p nuevos s s') :
    nuevos = (libresEnOrden s.disco).take nuevos.length := by
  rw [← h.reserva, List.take_left]

theorem libres_eq (h : Crecio raiz cad p nuevos s s') :
    nuevos.length + libres s'.disco = libres s.disco := by
  have hlen := congrArg List.length h.reserva
  rwa [List.length_append, length_libresEnOrden, length_libresEnOrden] at hlen

end Crecio

theorem returns_pedirPrimerBloque (h : Ocupacion s.disco raiz cad) (hp : cad p = [])
    (hl : 0 < libres s.disco) :
    Op.Returns (pedirPrimerBloque s.disco.asignaciones) s fun r s' =>
      r.2 = s'.disco.asignaciones ∧ Crecio (update raiz p r.1) cad p [r.1] s s' := by
  obtain ⟨b, hb, hmin, hrun⟩ := obtenerPrimerBloqueLibre_apply h.toMedido hl
  have hlt := (mem_bloquesLibres.mp hb).1
  have hmax := h.dataBlocks_lt
  have hu : u32 (b : ℤ) = b := u32_natCast_of_lt (by unfold uint32Max at hmax; omega)
  have hlt₁ : b < (s.marcarBit (s.disco.inicio + b) true).disco.header.dataBlocks := hlt
  have hasig := aplicar_asignacion_asignaciones
    (s.marcarBit (s.disco.inicio + b) true).disco hlt₁ uint32Max
  rw [marcarBit_asignaciones] at hasig
  obtain ⟨hocu, hlib⟩ := h.conBloque hb hmin p
    ((s.marcarBit (s.disco.inicio + b) true).escribir (.asignacion b uint32Max))
    (update raiz p b) [b] rfl rfl (by simp [hp])
    (by
      rw [Pokedex.escribir_disco, hasig]
      exact h.fat.push_first (by omega) (h.free_of_mem hb))
  have hcad : cad p ++ [b] = [b] := by simp [hp]
  refine ⟨(b, update s.disco.asignaciones b uint32Max), _, ?_, hasig.symm, ?_, hlib.symm,
    (Contenido.marcarBit (h.lt_bits hlt) true).trans (Contenido.asignacion hlt₁ (by simp) _)⟩
  rotate_left
  · rw [hcad]
    exact hocu
  rw [pedirPrimerBloque, Op.bind_some hrun, hu,
    Op.bind_some (asignarSiguienteBloque_apply (h.ne_uint32Max hlt) _ _ _), Op.pure_apply]

theorem returns_primerBloque (h : Ocupacion s.disco raiz cad)
    (hl : 0 < (cad p).length + libres s.disco) :
    Op.Returns (primerBloque (raiz p) s.disco.asignaciones) s fun r s' => ∃ nuevos post,
      r.2 = s'.disco.asignaciones ∧ Crecio (update raiz p r.1) cad p nuevos s s' ∧
      cad p ++ nuevos = r.1 :: post ∧ nuevos.length = 1 - (cad p).length := by
  unfold primerBloque
  rcases hp : cad p with _ | ⟨b, post⟩
  · rw [if_pos (h.raiz_eq.mp hp)]
    obtain ⟨r, s', hrun, hasig, hcre⟩ := returns_pedirPrimerBloque h hp (by simpa [hp] using hl)
    exact ⟨r, s', hrun, [r.1], [], hasig, hcre, rfl, rfl⟩
  · have hne : raiz p ≠ uint32Max := fun he => by simp [h.raiz_eq.mpr he] at hp
    have hhead : raiz p = b := (hp ▸ h.fat.chain p).head_eq
    rw [if_neg hne]
    refine ⟨(raiz p, s.disco.asignaciones), s, rfl, [], post, rfl, ?_, ?_, ?_⟩
    · rw [Function.update_eq_self]
      exact Crecio.refl h p
    · rw [List.append_nil, hhead]
    · simp

theorem returns_pedirBloqueSiguiente (h : Ocupacion s.disco raiz cad) {pre : List ℕ} {c : ℕ}
    (hp : cad p = pre ++ [c]) (hl : 0 < libres s.disco) :
    Op.Returns (pedirBloqueSiguiente c s.disco.asignaciones) s fun r s' =>
      r.2 = s'.disco.asignaciones ∧ Crecio raiz cad p [r.1] s s' := by
  obtain ⟨b, hb, hmin, hrun⟩ := obtenerPrimerBloqueLibre_apply h.toMedido hl
  have hlt := (mem_bloquesLibres.mp hb).1
  have hmax := h.dataBlocks_lt
  have hu : u32 (b : ℤ) = b := u32_natCast_of_lt (by unfold uint32Max at hmax; omega)
  set s₁ := s.marcarBit (s.disco.inicio + b) true with hs₁
  have hc₁ : c < s₁.disco.header.dataBlocks := h.enRango p c (by simp [hp])
  have hcad : cad p ++ [b] = pre ++ [c, b] := by simp [hp]
  have hlt₂ : b < (s₁.escribir (.asignacion c b)).disco.header.dataBlocks := hlt
  have hasig : ((s₁.escribir (.asignacion c b)).escribir
      (.asignacion b uint32Max)).disco.asignaciones =
        update (update s.disco.asignaciones c b) b uint32Max := by
    rw [Pokedex.escribir_disco, aplicar_asignacion_asignaciones _ hlt₂, Pokedex.escribir_disco,
      aplicar_asignacion_asignaciones _ hc₁, hs₁, marcarBit_asignaciones]
  obtain ⟨hocu, hlib⟩ := h.conBloque hb hmin p
    ((s₁.escribir (.asignacion c b)).escribir (.asignacion b uint32Max)) raiz (pre ++ [c, b]) rfl
    rfl (by simp [hp, or_assoc])
    (by
      rw [hasig]
      exact h.fat.push hp (by omega) (h.free_of_mem hb))
  refine ⟨(b, update (update s.disco.asignaciones c b) b uint32Max), _, ?_, hasig.symm,
    hcad ▸ hocu, hlib.symm, hcad ▸ ((Contenido.marcarBit (h.lt_bits hlt) true).trans
      (Contenido.asignacion hc₁ (by simp) _)).trans (Contenido.asignacion hlt₂ (by simp) _)⟩
  rw [pedirBloqueSiguiente, Op.bind_some hrun, hu,
    Op.bind_some (asignarSiguienteBloque_apply (h.ne_uint32Max hc₁) _ _ _),
    Op.bind_some (asignarSiguienteBloque_apply (h.ne_uint32Max hlt) _ _ _), Op.pure_apply]

theorem Ocupacion.sinPrimero (h : Ocupacion s.disco raiz cad) {b : ℕ} {post : List ℕ}
    (hp : cad p = b :: post) :
    Ocupacion (s.marcarBit (s.disco.inicio + b) false).disco
      (update raiz p (s.disco.asignaciones b)) (update cad p post) ∧
    libres (s.marcarBit (s.disco.inicio + b) false).disco = libres s.disco + 1 := by
  have hlt : b < s.disco.header.dataBlocks := h.enRango p b (by simp [hp])
  have hbit := fun c => bit_marcarBit_data h.toMedido hlt false c
  have hnd := (h.fat.chain p).nodup
  rw [hp, List.nodup_cons] at hnd
  have hsub : ∀ i, ∀ c ∈ update cad p post i, c ∈ cad i ∧ c ≠ b := by
    intro i c hc
    by_cases hi : i = p
    · subst hi
      rw [Function.update_self] at hc
      exact ⟨by simp [hp, hc], fun he => hnd.1 (he ▸ hc)⟩
    · rw [Function.update_of_ne hi] at hc
      exact ⟨hc, fun he => h.fat.disjoint i p hi c hc (by simp [hp, he])⟩
  constructor
  · refine ⟨h.toMapeado.marcarBit hlt false, h.fat.pop hp, ?_, ?_⟩
    · intro i c hc
      exact h.enRango i c (hsub i c hc).1
    · intro c hc
      rw [marcarBit_inicio, hbit]
      by_cases hcb : c = b
      · subst hcb
        simp only [if_true, Bool.false_eq_true, false_iff]
        rintro ⟨i, hmem⟩
        exact (hsub i c hmem).2 rfl
      · rw [if_neg hcb, h.bits c hc]
        constructor
        · rintro ⟨i, hmem⟩
          by_cases hi : i = p
          · subst hi
            rw [hp, List.mem_cons] at hmem
            exact ⟨i, by rw [Function.update_self]; exact hmem.resolve_left hcb⟩
          · exact ⟨i, by rwa [Function.update_of_ne hi]⟩
        · rintro ⟨i, hmem⟩
          exact ⟨i, (hsub i c hmem).1⟩
  · have hset : bit s.disco.bitmap (s.disco.inicio + b) = true :=
      (h.bits b hlt).mpr ⟨p, by simp [hp]⟩
    have hnew : bloquesLibres (s.marcarBit (s.disco.inicio + b) false).disco =
        insert b (bloquesLibres s.disco) := by
      ext c
      rw [Finset.mem_insert, mem_bloquesLibres, mem_bloquesLibres, marcarBit_inicio, hbit]
      by_cases hcb : c = b <;> simp [hcb, hlt]
    rw [libres, hnew, Finset.card_insert_of_notMem]
    simp [mem_bloquesLibres, hset]

/-- The loop that frees a chain reaches its end, and every block of it is free. -/
theorem returns_liberarBloques_loop {asig : ℕ → ℕ} {xs : List ℕ} :
    ∀ {s : Pokedex} {raiz : ℕ → ℕ} {cad : ℕ → List ℕ}, Ocupacion s.disco raiz cad →
      s.disco.asignaciones = asig → cad p = xs → ∀ fuel, xs.length ≤ fuel →
      Op.Returns (Op.whileDo (fun bloque => bloque ≠ uint32Max) (liberarBloque asig) fuel (raiz p)) s
        fun _ s' =>
          Ocupacion s'.disco (update raiz p uint32Max) (update cad p []) ∧
          libres s'.disco = libres s.disco + xs.length ∧ Contenido (fun _ => False) s s' := by
  induction xs with
  | nil =>
    intro s raiz cad h _ hp fuel _
    have hstop := h.raiz_eq.mp hp
    have hraiz : update raiz p uint32Max = raiz := by rw [← hstop, Function.update_eq_self]
    have hcad : update cad p [] = cad := by rw [← hp, Function.update_eq_self]
    refine ⟨raiz p, s, ?_, by rwa [hraiz, hcad], rfl, Contenido.refl _ s⟩
    cases fuel <;> simp [Op.whileDo, hstop]
  | cons b xs ih =>
    intro s raiz cad h hasig hp fuel hfuel
    rw [List.length_cons] at hfuel
    obtain ⟨fuel, rfl⟩ : ∃ n, fuel = n + 1 := ⟨fuel - 1, by omega⟩
    have hraiz : raiz p = b := (hp ▸ h.fat.chain p).head_eq
    have hne : raiz p ≠ uint32Max := by
      rw [hraiz]
      exact h.fat.ne_stop (i := p) (by simp [hp])
    have hlt : b < s.disco.header.dataBlocks := h.enRango p b (by simp [hp])
    obtain ⟨hocu, hlib⟩ := h.sinPrimero hp
    obtain ⟨r, s', hrun, hocu', hlib', hcont⟩ := ih (s := s.marcarBit (s.disco.inicio + b) false)
      hocu hasig (by rw [Function.update_self]) fuel (by omega)
    rw [Function.update_self] at hrun
    rw [Function.update_idem, Function.update_idem] at hocu'
    refine ⟨r, s', ?_, hocu', by rw [List.length_cons]; omega,
      (Contenido.marcarBit (h.lt_bits hlt) false).trans hcont⟩
    have hround : liberarBloque asig b s =
        (some (asig b), s.marcarBit (s.disco.inicio + b) false) := by
      rw [liberarBloque, Op.bind_some (editarBloqueEnBitmap_apply h.toMedido hlt false),
        Op.pure_apply]
    rw [hasig] at hrun
    rw [Op.whileDo, if_pos (by simpa using hne), hraiz, Op.bind_some hround]
    exact hrun

theorem returns_liberarBloques (h : Ocupacion s.disco raiz cad) (p : ℕ) :
    Op.Returns (liberarBloques s.disco.asignaciones (raiz p)) s fun _ s' =>
      Ocupacion s'.disco (update raiz p uint32Max) (update cad p []) ∧
      libres s'.disco = libres s.disco + (cad p).length ∧ Contenido (fun _ => False) s s' := by
  have hlargo : (cad p).length ≤ uint32Max := (h.length_le p).trans h.dataBlocks_lt.le
  exact returns_liberarBloques_loop h rfl rfl _ hlargo

end Pedir

/-! ## Writes out of place -/

/-- What holds of every run: the header stays and the writes are added to the record. -/
def Crece (s s' : Pokedex) : Prop :=
  s'.disco.header = s.disco.header ∧ s.escrituras <+: s'.escrituras

namespace Crece

theorem refl (s : Pokedex) : Crece s s := ⟨rfl, List.prefix_refl _⟩

theorem trans (a b c : Pokedex) (hab : Crece a b) (hbc : Crece b c) : Crece a c :=
  ⟨hbc.1.trans hab.1, hab.2.trans hbc.2⟩

theorem escribir (s : Pokedex) (w : Escritura) : Crece s (s.escribir w) :=
  ⟨aplicar_header _ _, List.prefix_append _ _⟩

end Crece

theorem Contenido.crece {P : ℕ → Prop} {s s' : Pokedex} (h : Contenido P s s') : Crece s s' := by
  obtain ⟨ws, he, _⟩ := h.escrituras
  exact ⟨h.header, ws, he.symm⟩

def Escritura.DelMapa : Escritura → Prop
  | .bitmap _ _ | .asignacion _ _ => True
  | .descriptor _ _ | .datos _ _ => False

/-- What `R` says of two states, writes of bits and cells keep. -/
structure DeMapa (R : Pokedex → Pokedex → Prop) : Prop where
  refl : ∀ s, R s s
  trans : ∀ a b c, R a b → R b c → R a c
  escribir : ∀ s w, w.DelMapa → R s (s.escribir w)

namespace DeMapa

variable {R : Pokedex → Pokedex → Prop} {α β : Type} (hR : DeMapa R)
include hR

theorem pure (a : α) : Op.Keeps R (Pure.pure a : Op Pokedex α) := Op.Keeps.pure hR.refl a

theorem get (f : Pokedex → α) : Op.Keeps R (Op.get f) := Op.Keeps.get hR.refl f

theorem abort : Op.Keeps R (Op.abort : Op Pokedex α) := Op.Keeps.abort hR.refl

theorem bind {x : Op Pokedex α} {f : α → Op Pokedex β} (hx : Op.Keeps R x)
    (hf : ∀ a, Op.Keeps R (f a)) : Op.Keeps R (x >>= f) := Op.Keeps.bind hR.trans hx hf

theorem asignarSiguienteBloque (p v : ℕ) (asig : ℕ → ℕ) :
    Op.Keeps R (asignarSiguienteBloque p v asig) := fun s => hR.escribir s _ trivial

theorem editarBloqueEnBitmap (b : ℕ) (v : Bool) : Op.Keeps R (editarBloqueEnBitmap b v) :=
  fun s => hR.escribir s _ trivial

theorem obtenerPrimerBloqueLibre : Op.Keeps R obtenerPrimerBloqueLibre := by
  rw [Osada.obtenerPrimerBloqueLibre]
  refine hR.bind (hR.get _) fun d => ?_
  split
  · exact hR.pure _
  · exact hR.bind (hR.editarBloqueEnBitmap _ _) fun _ => hR.pure _

theorem pedirPrimerBloque (asig : ℕ → ℕ) : Op.Keeps R (pedirPrimerBloque asig) :=
  hR.bind hR.obtenerPrimerBloqueLibre fun _ =>
    hR.bind (hR.asignarSiguienteBloque _ _ _) fun _ => hR.pure _

theorem primerBloque (b : ℕ) (asig : ℕ → ℕ) : Op.Keeps R (primerBloque b asig) := by
  unfold Osada.primerBloque
  split
  · exact hR.pedirPrimerBloque asig
  · exact hR.pure _

theorem pedirBloqueSiguiente (c : ℕ) (asig : ℕ → ℕ) :
    Op.Keeps R (pedirBloqueSiguiente c asig) :=
  hR.bind hR.obtenerPrimerBloqueLibre fun _ => hR.bind (hR.asignarSiguienteBloque _ _ _) fun _ =>
    hR.bind (hR.asignarSiguienteBloque _ _ _) fun _ => hR.pure _

theorem liberarBloques (asig : ℕ → ℕ) (b : ℕ) : Op.Keeps R (liberarBloques asig b) := by
  unfold Osada.liberarBloques
  apply Op.Keeps.whileDo hR.refl hR.trans
  intro b
  exact hR.bind (hR.editarBloqueEnBitmap _ _) fun _ => hR.pure _

end DeMapa

/-- The writes between the two states put no data in a block. -/
def SinDatos (s s' : Pokedex) : Prop :=
  ∃ ws, s'.escrituras = s.escrituras ++ ws ∧ ∀ w ∈ ws, ∀ desde bytes, w ≠ .datos desde bytes

theorem SinDatos.escribir {s : Pokedex} {w : Escritura} (hw : ∀ desde bytes, w ≠ .datos desde bytes) :
    SinDatos s (s.escribir w) := ⟨[w], rfl, by simpa using hw⟩

theorem SinDatos.trans {a b c : Pokedex} (hab : SinDatos a b) (hbc : SinDatos b c) :
    SinDatos a c := by
  obtain ⟨ws, hws, hsin⟩ := hab
  obtain ⟨ws', hws', hsin'⟩ := hbc
  refine ⟨ws ++ ws', by rw [hws', hws, List.append_assoc], fun w hw => ?_⟩
  rcases List.mem_append.mp hw with hw | hw
  · exact hsin w hw
  · exact hsin' w hw

theorem sinDatos : DeMapa SinDatos where
  refl s := ⟨[], by simp⟩
  trans _ _ _ := SinDatos.trans
  escribir s w hw := SinDatos.escribir fun desde bytes he => by
    subst he
    exact hw

/-- Without data it does not matter whose blocks they are. -/
theorem SinDatos.enSuLugar {P Q : ℕ → Prop} {s s' : Pokedex} (h : SinDatos s s')
    (hlugar : ∃ ws, s'.escrituras = s.escrituras ++ ws ∧ ∀ w ∈ ws, EnSuLugar s.disco.header P w) :
    ∃ ws, s'.escrituras = s.escrituras ++ ws ∧ ∀ w ∈ ws, EnSuLugar s.disco.header Q w := by
  obtain ⟨ws, hws, hsin⟩ := h
  obtain ⟨ws', hws', hw'⟩ := hlugar
  obtain rfl := List.append_cancel_left (hws.symm.trans hws')
  refine ⟨ws, hws, fun w hw => ?_⟩
  have hp := hw' w hw
  cases w with
  | bitmap => exact hp
  | asignacion => exact hp
  | descriptor => exact hp
  | datos desde bytes => exact absurd rfl (hsin _ hw desde bytes)

theorem crece : DeMapa Crece := ⟨Crece.refl, Crece.trans, fun s w _ => Crece.escribir s w⟩

theorem mismosDatos : DeMapa fun s s' => s'.disco.datos = s.disco.datos where
  refl _ := rfl
  trans _ _ _ hab hbc := hbc.trans hab
  escribir s w hw := by
    cases w with
    | bitmap => exact aplicar_bitmap_datos _ _ _
    | asignacion => exact aplicar_asignacion_datos _ _ _
    | descriptor => exact hw.elim
    | datos => exact hw.elim

section Crece
variable {α β : Type}

def Escribe (x : Op Pokedex α) (s : Pokedex) (w : Escritura) : Prop :=
  ∃ pre, (pre ++ [w]) <+: (x s).2.escrituras ∧ s.escrituras <+: pre

theorem Escribe.bind {x : Op Pokedex α} {f : α → Op Pokedex β} {s : Pokedex} {w : Escritura}
    (h : Escribe x s w) (hf : ∀ a, Op.Keeps Crece (f a)) : Escribe (x >>= f) s w := by
  obtain ⟨pre, hpre, hs⟩ := h
  refine ⟨pre, ?_, hs⟩
  rcases he : x s with ⟨_ | a, s'⟩
  · rw [Op.bind_none he]
    rwa [he] at hpre
  · rw [Op.bind_some he]
    rw [he] at hpre
    exact hpre.trans (hf a s').2

theorem Escribe.after {x : Op Pokedex α} {f : α → Op Pokedex β} {s s' : Pokedex} {a : α}
    {w : Escritura} (hx : x s = (some a, s')) (hc : Crece s s') (h : Escribe (f a) s' w) :
    Escribe (x >>= f) s w := by
  obtain ⟨pre, hpre, hs⟩ := h
  refine ⟨pre, ?_, hc.2.trans hs⟩
  rw [Op.bind_some hx]
  exact hpre

/-- The run writes a cell past those of the blocks. -/
def Sale (x : Op Pokedex α) (s : Pokedex) : Prop :=
  ∃ p v, s.disco.header.dataBlocks ≤ p ∧ Escribe x s (.asignacion p v)

theorem Sale.bind {x : Op Pokedex α} {f : α → Op Pokedex β} {s : Pokedex}
    (h : Sale x s) (hf : ∀ a, Op.Keeps Crece (f a)) : Sale (x >>= f) s := by
  obtain ⟨p, v, hp, hw⟩ := h
  exact ⟨p, v, hp, hw.bind hf⟩

theorem Sale.after {x : Op Pokedex α} {f : α → Op Pokedex β} {s s' : Pokedex} {a : α}
    (hx : x s = (some a, s')) (hc : Crece s s') (h : Sale (f a) s') : Sale (x >>= f) s := by
  obtain ⟨p, v, hp, hw⟩ := h
  exact ⟨p, v, hc.1 ▸ hp, hw.after hx hc⟩

theorem sale_asignarSiguienteBloque {s : Pokedex} {p : ℕ} (hp : s.disco.header.dataBlocks ≤ p)
    (v : ℕ) (asig : ℕ → ℕ) : Sale (asignarSiguienteBloque p v asig) s :=
  ⟨p, v, hp, s.escrituras, List.prefix_refl _, List.prefix_refl _⟩

end Crece

/-! ## The bits after those of the blocks -/

/-- The bits of the bitmap that stand for no block. -/
def relleno (h : OsadaHeader) : ℕ := h.bitmapBlocks * 64 * 8 - h.fsBlocks

/-- Every block is taken, and `j` of the bits that stand for none. -/
structure Lleno (d : Disco) (j : ℕ) : Prop extends Medido d where
  ocupados : ∀ k < d.header.fsBlocks + j, bit d.bitmap k = true
  altos : ∀ k, d.header.fsBlocks + j ≤ k → k < d.header.bitmapBlocks * 64 * 8 →
    bit d.bitmap k = false

namespace Lleno

variable {s : Pokedex} {j : ℕ}

theorem of_mapeado {d : Disco} (h : Mapeado d) (hl : libres d = 0) : Lleno d 0 where
  toMedido := h.toMedido
  altos := h.altos
  ocupados k hk := by
    have hsum := h.suma
    rcases Nat.lt_or_ge k d.inicio with hlo | hhi
    · exact h.bajos k hlo
    · by_contra hz
      have hmem : k - d.inicio ∈ bloquesLibres d := by
        rw [mem_bloquesLibres]
        refine ⟨by omega, ?_⟩
        rw [Nat.add_sub_cancel' hhi]
        exact Bool.eq_false_iff.mpr hz
      rw [libres, Finset.card_eq_zero] at hl
      rw [hl] at hmem
      exact absurd hmem (Finset.notMem_empty _)

theorem escribir_asignacion (h : Lleno s.disco j) (p v : ℕ) :
    Lleno (s.escribir (.asignacion p v)).disco j :=
  ⟨h.toMedido.congr rfl rfl, h.ocupados, h.altos⟩

/-- The search takes the next of those bits, as if a block with the next number were there. -/
theorem obtenerPrimerBloqueLibre_toma (h : Lleno s.disco j) (hj : j < relleno s.disco.header)
    (hmax : s.disco.header.fsBlocks + j < 2147483648) :
    ∃ s', obtenerPrimerBloqueLibre s = (some ((s.disco.header.dataBlocks + j : ℕ) : ℤ), s') ∧
      s'.disco.header = s.disco.header ∧ Lleno s'.disco (j + 1) := by
  have hsum := h.suma
  have hch := h.chico
  have halc := h.alcanza
  unfold relleno at hj
  have hk : s.disco.header.fsBlocks + j < s.disco.header.bitmapBlocks * 64 * 8 := by omega
  have hfind : primerBitLibre s.disco = some (s.disco.header.fsBlocks + j) := by
    refine primerBitLibre_eq_some.mpr ⟨h.altos _ le_rfl hk, ?_, fun i hi => h.ocupados i hi⟩
    rwa [h.bitsDelMapa]
  have hbit : editarBloqueEnBitmap (s.disco.header.dataBlocks + j) true s =
      (some 0, s.marcarBit (s.disco.header.fsBlocks + j) true) := by
    rw [editarBloqueEnBitmap, show (((s.disco.header.dataBlocks + j : ℕ) : ℤ) +
      (s.disco.inicio : ℤ)) = ((s.disco.header.fsBlocks + j : ℕ) : ℤ) by omega,
      u32_natCast_of_lt (by omega)]
  have hnumero : (((s.disco.header.fsBlocks + j : ℕ) : ℤ) - (s.disco.inicio : ℤ)) =
      ((s.disco.header.dataBlocks + j : ℕ) : ℤ) := by omega
  refine ⟨s.marcarBit (s.disco.header.fsBlocks + j) true, ?_, rfl,
    h.toMedido.marcarBit hk (by omega) true, fun i hi => ?_, fun i hlo hhi => ?_⟩
  · rw [obtenerPrimerBloqueLibre, Op.get_bind, hfind]
    simp only [hnumero]
    rw [u32_natCast_of_lt (by omega), i32_natCast_of_lt (by omega), Op.bind_some hbit,
      Op.pure_apply]
  · rw [marcarBit_header] at hi
    rw [bit_marcarBit s hk]
    split
    · rfl
    · exact h.ocupados i (by omega)
  · rw [marcarBit_header] at hlo hhi
    rw [bit_marcarBit s hk, if_neg (by omega)]
    exact h.altos i (by omega) hhi

theorem obtenerPrimerBloqueLibre_nada (h : Lleno s.disco j) (hj : relleno s.disco.header ≤ j) :
    obtenerPrimerBloqueLibre s = (some (-1), s) := by
  have halc := h.alcanza
  unfold relleno at hj
  rw [obtenerPrimerBloqueLibre, Op.get_bind]
  rcases hfind : primerBitLibre s.disco with _ | k
  · rfl
  · obtain ⟨hz, hbits, _⟩ := primerBitLibre_eq_some.mp hfind
    rw [h.bitsDelMapa] at hbits
    rw [h.ocupados k (by omega)] at hz
    exact absurd hz (by simp)

theorem pedirPrimerBloque_toma (h : Lleno s.disco j) (hj : j < relleno s.disco.header)
    (hmax : s.disco.header.fsBlocks + j < 2147483648) (asig : ℕ → ℕ) :
    ∃ s', pedirPrimerBloque asig s = (some (s.disco.header.dataBlocks + j,
        update asig (s.disco.header.dataBlocks + j) uint32Max), s') ∧
      s'.disco.header = s.disco.header ∧ Lleno s'.disco (j + 1) := by
  obtain ⟨s₁, hrun, hheader, hlleno⟩ := h.obtenerPrimerBloqueLibre_toma hj hmax
  have hsum := h.suma
  have hne : s.disco.header.dataBlocks + j ≠ uint32Max := by
    unfold uint32Max
    omega
  refine ⟨s₁.escribir (.asignacion (s.disco.header.dataBlocks + j) uint32Max), ?_, hheader,
    hlleno.escribir_asignacion _ _⟩
  rw [pedirPrimerBloque, Op.bind_some hrun, u32_natCast_of_lt (by omega),
    Op.bind_some (asignarSiguienteBloque_apply hne _ _ _), Op.pure_apply]

theorem pedirBloqueSiguiente_toma (h : Lleno s.disco j) (hj : j < relleno s.disco.header)
    (hmax : s.disco.header.fsBlocks + j < 2147483648) {c : ℕ} (hc : c ≠ uint32Max)
    (asig : ℕ → ℕ) :
    ∃ s', pedirBloqueSiguiente c asig s = (some (s.disco.header.dataBlocks + j,
        update (update asig c (s.disco.header.dataBlocks + j))
          (s.disco.header.dataBlocks + j) uint32Max), s') ∧
      s'.disco.header = s.disco.header ∧ Lleno s'.disco (j + 1) := by
  obtain ⟨s₁, hrun, hheader, hlleno⟩ := h.obtenerPrimerBloqueLibre_toma hj hmax
  have hsum := h.suma
  have hne : s.disco.header.dataBlocks + j ≠ uint32Max := by
    unfold uint32Max
    omega
  refine ⟨(s₁.escribir (.asignacion c (s.disco.header.dataBlocks + j))).escribir
      (.asignacion (s.disco.header.dataBlocks + j) uint32Max), ?_, hheader,
    (hlleno.escribir_asignacion _ _).escribir_asignacion _ _⟩
  rw [pedirBloqueSiguiente, Op.bind_some hrun, u32_natCast_of_lt (by omega),
    Op.bind_some (asignarSiguienteBloque_apply hc _ _ _),
    Op.bind_some (asignarSiguienteBloque_apply hne _ _ _), Op.pure_apply]

/-- The mark that ends a chain, taken for a block. -/
theorem asignarSiguienteBloque_mal (v : ℕ) (asig : ℕ → ℕ) :
    (asignarSiguienteBloque uint32Max v asig s).1 = none := by
  rw [asignarSiguienteBloque, if_pos rfl]

theorem pedirPrimerBloque_nada (h : Lleno s.disco j) (hj : relleno s.disco.header ≤ j)
    (asig : ℕ → ℕ) : (pedirPrimerBloque asig s).1 = none := by
  rw [pedirPrimerBloque, Op.bind_some (h.obtenerPrimerBloqueLibre_nada hj),
    show u32 (-1) = uint32Max from rfl]
  exact Op.bind_fst_none (asignarSiguienteBloque_mal _ _)

theorem pedirBloqueSiguiente_nada (h : Lleno s.disco j) (hj : relleno s.disco.header ≤ j) {c : ℕ}
    (hc : c ≠ uint32Max) (asig : ℕ → ℕ) : (pedirBloqueSiguiente c asig s).1 = none := by
  rw [pedirBloqueSiguiente, Op.bind_some (h.obtenerPrimerBloqueLibre_nada hj),
    show u32 (-1) = uint32Max from rfl, Op.bind_some (asignarSiguienteBloque_apply hc _ _ _),
    Op.bind_none (Prod.ext (asignarSiguienteBloque_mal _ _) rfl)]

end Lleno

/-! ## Blocks asked for on a full disk -/

section Sale
variable {s : Pokedex}

/-- On a full disk the search yields no block of data. -/
theorem obtenerPrimerBloqueLibre_lleno (h : Mapeado s.disco) (hl : libres s.disco = 0) :
    ∃ r s', obtenerPrimerBloqueLibre s = (some r, s') ∧ s.disco.header.dataBlocks ≤ u32 r := by
  have hlleno := Lleno.of_mapeado h hl
  have hsum := h.suma
  have hch := h.chico
  rcases Nat.eq_zero_or_pos (relleno s.disco.header) with hcero | hmas
  · refine ⟨-1, s, hlleno.obtenerPrimerBloqueLibre_nada hcero.le, ?_⟩
    rw [u32_neg_one]
    exact h.dataBlocks_lt.le
  · obtain ⟨s', hrun, _, _⟩ := hlleno.obtenerPrimerBloqueLibre_toma hmas (by omega)
    refine ⟨_, s', hrun, ?_⟩
    rw [u32_natCast_of_lt (by omega), Nat.add_zero]

theorem sale_pedirPrimerBloque (h : Mapeado s.disco) (hl : libres s.disco = 0)
    (asig : ℕ → ℕ) : Sale (pedirPrimerBloque asig) s := by
  obtain ⟨r, s', hrun, hr⟩ := obtenerPrimerBloqueLibre_lleno h hl
  have hc := crece.obtenerPrimerBloqueLibre s
  rw [hrun] at hc
  refine Sale.after hrun hc (Sale.bind (sale_asignarSiguienteBloque ?_ _ _) fun _ => crece.pure _)
  rwa [hc.1]

theorem sale_pedirBloqueSiguiente (h : Mapeado s.disco) (hl : libres s.disco = 0)
    {c : ℕ} (hc : c < s.disco.header.dataBlocks) (asig : ℕ → ℕ) :
    Sale (pedirBloqueSiguiente c asig) s := by
  obtain ⟨r, s', hrun, hr⟩ := obtenerPrimerBloqueLibre_lleno h hl
  have hcrece := crece.obtenerPrimerBloqueLibre s
  rw [hrun] at hcrece
  refine Sale.after hrun hcrece
    (Sale.after (asignarSiguienteBloque_apply (h.ne_uint32Max hc) _ _ _) (Crece.escribir _ _) ?_)
  refine Sale.bind (sale_asignarSiguienteBloque ?_ _ _) fun _ => crece.pure _
  rwa [Pokedex.escribir_disco, aplicar_header, hcrece.1]

end Sale

end TpSo.Osada
