import TpSo.Osada.Bloques

/-!
# Writing into a file

`editarArchivoInterna`: the check of the free space, the first block of an empty file and
the loop over the blocks, which takes a new block whenever the chain ends too soon. Signed
sums are taken in `ℤ`; what goes through an unsigned type goes through `u32`.
-/

namespace TpSo.Osada

open Function (update)

def escribirDatos (desde : ℕ) (bytes : List UInt8) : Op Pokedex PUnit := fun s =>
  (some ⟨⟩, s.escribir (.datos desde bytes))

/-- The variables of the loop; `resto` is the buffer from `punteroArchivo` on. -/
structure Edicion where
  bloqueAEditar : ℕ
  bytesAEscribir : ℤ
  posicionInicial : ℤ
  bytesEscritos : ℤ
  resto : List UInt8
  asignaciones : ℕ → ℕ

def Edicion.largo (e : Edicion) : ℤ :=
  if 64 ≤ e.bytesAEscribir + e.posicionInicial then 64 - e.posicionInicial
  else e.bytesAEscribir

/-- The variables after the bytes of the round are written or skipped. -/
def Edicion.escrita (e : Edicion) : Edicion :=
  if e.posicionInicial < 64 then
    { e with
      bytesAEscribir := e.bytesAEscribir - e.largo
      posicionInicial := 0
      bytesEscritos := e.bytesEscritos + e.largo
      resto := e.resto.drop e.largo.toNat }
  else { e with posicionInicial := e.posicionInicial - 64 }

def escribirEnBloque (e : Edicion) : Op Pokedex Edicion := do
  let d ← Op.get Pokedex.disco
  if e.posicionInicial < 64 then
    escribirDatos (u32 (e.bloqueAEditar * 64 + d.inicio * 64 + e.posicionInicial))
      (e.resto.take e.largo.toNat)
  pure e.escrita

/-- `siguiente_bloque_bq = asignaciones[bloqueAEditar_bq]`, and one more block if there is
none and bytes are left. -/
def avanzarBloque (e : Edicion) : Op Pokedex Edicion :=
  if e.bloqueAEditar = uint32Max then Op.abort
  else if e.asignaciones e.bloqueAEditar = uint32Max ∧ 0 < e.bytesAEscribir then do
    let (siguiente, asignaciones) ← pedirBloqueSiguiente e.bloqueAEditar e.asignaciones
    pure { e with bloqueAEditar := siguiente, asignaciones := asignaciones }
  else pure { e with bloqueAEditar := e.asignaciones e.bloqueAEditar }

def editarBloque (e : Edicion) : Op Pokedex Edicion := escribirEnBloque e >>= avanzarBloque

def editarBloques (fuel : ℕ) (e : Edicion) : Op Pokedex Edicion :=
  Op.whileDo (fun e => 0 < e.bytesAEscribir) editarBloque fuel e

/-- The result and the descriptor, whose `first_block` may have changed. -/
def editarArchivoInterna (descriptor : OsadaFile) (bytesAEscribir posicionInicial : ℤ)
    (edicion : List UInt8) : Op Pokedex (ℤ × OsadaFile) := do
  let d ← Op.get Pokedex.disco
  if u32 (descriptor.fileSize - posicionInicial + obtenerBloquesLibres d * 64)
      < u32 bytesAEscribir then pure (noHayEspacio, descriptor)
  else do
    let (bloque, asignaciones) ← primerBloque descriptor.firstBlock d.asignaciones
    let e ← editarBloques (bytesAEscribir.toNat + posicionInicial.toNat)
      { bloqueAEditar := bloque, bytesAEscribir := bytesAEscribir,
        posicionInicial := posicionInicial, bytesEscritos := 0, resto := edicion,
        asignaciones := asignaciones }
    pure (e.bytesEscritos, { descriptor with firstBlock := bloque })

/-- The rounds of the loop, that is the blocks it goes through. -/
def rondas (bytesAEscribir posicionInicial : ℤ) : ℕ :=
  if 0 < bytesAEscribir then max 1 ((bytesAEscribir + posicionInicial + 63) / 64).toNat else 0

theorem rondas_of_pos {n pos : ℤ} (h : 0 < n) :
    rondas n pos = max 1 ((n + pos + 63) / 64).toNat := if_pos h

theorem rondas_of_le {n pos : ℤ} (h : n ≤ 0) : rondas n pos = 0 := if_neg (not_lt.mpr h)

namespace Edicion

variable (e : Edicion)

@[simp] theorem escrita_bloqueAEditar : e.escrita.bloqueAEditar = e.bloqueAEditar := by
  unfold escrita; split <;> rfl

@[simp] theorem escrita_asignaciones : e.escrita.asignaciones = e.asignaciones := by
  unfold escrita; split <;> rfl

theorem escrita_posicionInicial : 0 ≤ e.escrita.posicionInicial := by
  unfold escrita
  split
  · exact le_refl _
  · change 0 ≤ e.posicionInicial - 64
    omega

theorem escrita_suma : e.escrita.bytesEscritos + e.escrita.bytesAEscribir =
    e.bytesEscritos + e.bytesAEscribir := by
  unfold escrita
  split
  · change e.bytesEscritos + e.largo + (e.bytesAEscribir - e.largo) = _
    omega
  · rfl

theorem largo_le : e.largo ≤ 64 - e.posicionInicial := by
  unfold largo
  split <;> omega

theorem largo_nonneg (h : 0 ≤ e.bytesAEscribir) (hpos : e.posicionInicial < 64) : 0 ≤ e.largo := by
  unfold largo
  split <;> omega

theorem largo_le_bytes : e.largo ≤ e.bytesAEscribir := by
  unfold largo
  split <;> omega

theorem escrita_resto (h : 0 ≤ e.bytesAEscribir) (hresto : (e.resto.length : ℤ) = e.bytesAEscribir) :
    (e.escrita.resto.length : ℤ) = e.escrita.bytesAEscribir := by
  unfold escrita
  split
  · next hpos =>
    have h0 := e.largo_nonneg h hpos
    have hle := e.largo_le_bytes
    simp only [List.length_drop]
    omega
  · exact hresto

theorem escrita_rondas (h : 0 < e.bytesAEscribir) :
    rondas e.bytesAEscribir e.posicionInicial =
      rondas e.escrita.bytesAEscribir e.escrita.posicionInicial + 1 ∧
    e.escrita.bytesAEscribir.toNat + e.escrita.posicionInicial.toNat <
      e.bytesAEscribir.toNat + e.posicionInicial.toNat ∧ 0 ≤ e.escrita.bytesAEscribir := by
  rw [rondas_of_pos h]
  rcases lt_or_ge e.posicionInicial 64 with hp | hp
  · simp only [escrita, if_pos hp, largo]
    rcases le_or_gt 64 (e.bytesAEscribir + e.posicionInicial) with hl | hl
    · rw [if_pos hl]
      rcases le_or_gt (e.bytesAEscribir - (64 - e.posicionInicial)) 0 with hz | hz
      · rw [rondas_of_le hz]
        refine ⟨?_, ?_, ?_⟩ <;> omega
      · rw [rondas_of_pos hz]
        refine ⟨?_, ?_, ?_⟩ <;> omega
    · rw [if_neg (not_le.mpr hl), rondas_of_le (by omega)]
      refine ⟨?_, ?_, ?_⟩ <;> omega
  · simp only [escrita, if_neg (not_lt.mpr hp)]
    rw [rondas_of_pos h]
    refine ⟨?_, ?_, ?_⟩ <;> omega

end Edicion

/-- The write of a round: where it starts and what it writes. -/
def Edicion.escritura (e : Edicion) (d : Disco) : Escritura :=
  .datos (u32 (e.bloqueAEditar * 64 + d.inicio * 64 + e.posicionInicial))
    (e.resto.take e.largo.toNat)

theorem escribirEnBloque_apply (e : Edicion) (s : Pokedex) :
    escribirEnBloque e s = (some e.escrita,
      if e.posicionInicial < 64 then s.escribir (e.escritura s.disco) else s) := by
  rw [escribirEnBloque, Op.get_bind]
  split
  · exact Op.bind_some rfl
  · exact Op.bind_some rfl

theorem DeMapa.avanzarBloque {R : Pokedex → Pokedex → Prop} (hR : DeMapa R) (e : Edicion) :
    Op.Keeps R (avanzarBloque e) := by
  rw [Osada.avanzarBloque]
  split
  · exact hR.abort
  · split
    · exact hR.bind (hR.pedirBloqueSiguiente _ _) fun _ => hR.pure _
    · exact hR.pure _

section Rondas
variable {s : Pokedex} {raiz : ℕ → ℕ} {cad : ℕ → List ℕ} {p : ℕ} {pre post : List ℕ}
  {e : Edicion}

/-- The position of the write does not leave the 32 bits it is computed in. -/
theorem escritura_eq (h : Mapeado s.disco)
    (hrango : e.bloqueAEditar < s.disco.header.dataBlocks) (hpos : 0 ≤ e.posicionInicial)
    (hlt : e.posicionInicial < 64) :
    e.escritura s.disco = .datos ((s.disco.inicio + e.bloqueAEditar) * 64 + e.posicionInicial.toNat)
      (e.resto.take e.largo.toNat) := by
  have hsum := h.suma
  have hch := h.chico
  obtain ⟨pos, hpos'⟩ := Int.eq_ofNat_of_zero_le hpos
  have hcast : ((e.bloqueAEditar : ℤ) * 64 + (s.disco.inicio : ℤ) * 64 + e.posicionInicial) =
      (((s.disco.inicio + e.bloqueAEditar) * 64 + pos : ℕ) : ℤ) := by
    rw [hpos']
    push_cast
    ring
  rw [Edicion.escritura, hcast, u32_natCast_of_lt (by omega), hpos', Int.toNat_natCast]

/-- A write at a position of the block that is not negative stays in the block. -/
theorem enSuLugar_escritura (h : Mapeado s.disco)
    (hrango : e.bloqueAEditar < s.disco.header.dataBlocks) (hpos : 0 ≤ e.posicionInicial)
    (hlt : e.posicionInicial < 64) :
    EnSuLugar s.disco.header (· = e.bloqueAEditar) (e.escritura s.disco) := by
  have hlargo := e.largo_le
  rw [escritura_eq h hrango hpos hlt]
  intro k hk
  rw [List.length_take] at hk
  refine ⟨e.bloqueAEditar, rfl, ?_, ?_⟩
  · change (s.disco.inicio + e.bloqueAEditar) * 64 ≤ _
    omega
  · change _ < (s.disco.inicio + e.bloqueAEditar) * 64 + 64
    omega

theorem enSuLugar_primera (h : Ocupacion s.disco raiz cad) {n pos : ℤ} (hpos : 0 ≤ pos)
    (edicion : List UInt8) {k : ℕ} {nuevos : List ℕ}
    (hnuevos : nuevos = (libresEnOrden s.disco).take k) (hlt : pos < 64) (b : ℕ) (post : List ℕ)
    (hbp : cad p ++ nuevos = b :: post) :
    EnSuLugar s.disco.header (· ∈ cad p ++ nuevos)
      (Edicion.escritura ⟨b, n, pos, 0, edicion, s.disco.asignaciones⟩ s.disco) := by
  have hb : b ∈ cad p ++ nuevos := by simp [hbp]
  have hrango : b < s.disco.header.dataBlocks := h.conNuevos (hnuevos ▸ hb)
  exact (enSuLugar_escritura h.toMapeado hrango hpos hlt).mono fun c hc => hc ▸ hb

theorem returns_avanzarBloque (h : Ocupacion s.disco raiz cad)
    (hp : cad p = pre ++ e.bloqueAEditar :: post) (hasig : e.asignaciones = s.disco.asignaciones)
    (hl : 0 < e.bytesAEscribir → 0 < post.length + libres s.disco) :
    Op.Returns (avanzarBloque e) s fun e' s' => ∃ nuevos, Crecio raiz cad p nuevos s s' ∧
      e' = { e with
        bloqueAEditar := e'.bloqueAEditar, asignaciones := s'.disco.asignaciones } ∧
      (0 < e.bytesAEscribir → ∃ resto, post ++ nuevos = e'.bloqueAEditar :: resto) ∧
      nuevos.length = if 0 < e.bytesAEscribir ∧ post = [] then 1 else 0 := by
  have hmem : e.bloqueAEditar ∈ cad p := by simp [hp]
  have hne := h.ne_uint32Max (h.enRango p _ hmem)
  have hchain := h.fat.chain p
  rw [hp] at hchain
  have hnext := hchain.next_eq_stop_iff
  rw [avanzarBloque, Op.Returns, if_neg hne, hasig]
  by_cases hnew : s.disco.asignaciones e.bloqueAEditar = uint32Max ∧ 0 < e.bytesAEscribir
  · rw [if_pos hnew]
    have hpost : post = [] := hnext.mp hnew.1
    subst hpost
    obtain ⟨⟨b, asig⟩, s', hrun, hasig', hcre⟩ := returns_pedirBloqueSiguiente h hp (by
      simpa using hl hnew.2)
    refine ⟨_, s', Op.bind_some hrun, [b], hcre, ?_, fun _ => ⟨[], rfl⟩, by simp [hnew.2]⟩
    simp only at hasig'
    rw [← hasig']
  · rw [if_neg hnew]
    refine ⟨_, s, rfl, [], Crecio.refl h p, by rw [← hasig], fun hpos => ?_, ?_⟩
    · have hne : post ≠ [] := fun he => hnew ⟨hnext.mpr he, hpos⟩
      obtain ⟨b, post, rfl⟩ := List.exists_cons_of_ne_nil hne
      exact ⟨post, by rw [List.append_nil, hchain.after.head_eq]⟩
    · rw [if_neg, List.length_nil]
      rintro ⟨hpos, he⟩
      exact hnew ⟨hnext.mpr he, hpos⟩

/-- The state after the first half of a round. -/
def Edicion.traslado (e : Edicion) (s : Pokedex) : Pokedex :=
  if e.posicionInicial < 64 then s.escribir (e.escritura s.disco) else s

theorem crecio_traslado (h : Ocupacion s.disco raiz cad)
    (hw : e.posicionInicial < 64 →
      EnSuLugar s.disco.header (· ∈ cad p) (e.escritura s.disco)) :
    Crecio raiz cad p [] s (e.traslado s) := by
  unfold Edicion.traslado
  split
  · refine ⟨?_, rfl, ?_⟩
    · rw [List.append_nil, Function.update_eq_self]
      exact h.congr rfl rfl rfl
    · rw [List.append_nil]
      exact Contenido.datos_escritos (hw ‹_›)
  · exact Crecio.refl h p

/-- The bytes of a round, and then the rest of them at the place where the next round is, are
those of the whole buffer. -/
theorem overwrite_traslado {xs : List ℕ} (h : Mapeado s.disco) (hnodup : xs.Nodup)
    (hxs : xs = pre ++ e.bloqueAEditar :: post)
    (hrango : e.bloqueAEditar < s.disco.header.dataBlocks) (hpos : 0 ≤ e.posicionInicial)
    (hn : 0 ≤ e.bytesAEscribir) (hresto : (e.resto.length : ℤ) = e.bytesAEscribir) :
    overwrite (contenido (e.traslado s).disco xs)
      ((pre.length + 1) * 64 + e.escrita.posicionInicial.toNat) e.escrita.resto =
    overwrite (contenido s.disco xs) (pre.length * 64 + e.posicionInicial.toNat) e.resto := by
  unfold Edicion.traslado Edicion.escrita
  split
  · next hlt =>
    have hle := e.largo_le
    have h0 := e.largo_nonneg hn hlt
    have hleb := e.largo_le_bytes
    have htoma : (e.resto.take e.largo.toNat).length = e.largo.toNat := by
      rw [List.length_take]
      omega
    have hcabe : pre.length * 64 + e.posicionInicial.toNat + (e.resto.take e.largo.toNat).length ≤
        (contenido s.disco xs).length := by
      rw [htoma, length_contenido, hxs, List.length_append, List.length_cons]
      omega
    have hescrito := contenido_datos (d := s.disco) (hxs ▸ hnodup)
      (show e.posicionInicial.toNat + (e.resto.take e.largo.toNat).length ≤ 64 by
        rw [htoma]
        omega)
    rw [← hxs] at hescrito
    rw [Pokedex.escribir_disco, escritura_eq h hrango hpos hlt, hescrito]
    simp only [Int.toNat_zero, Nat.add_zero]
    rcases le_or_gt 64 (e.bytesAEscribir + e.posicionInicial) with hlleno | hfin
    · -- the round goes up to the end of its block
      have hlargo : e.largo = 64 - e.posicionInicial := if_pos hlleno
      have hsig : (pre.length + 1) * 64 = pre.length * 64 + e.posicionInicial.toNat +
          (e.resto.take e.largo.toNat).length := by
        rw [htoma]
        omega
      rw [hsig, overwrite_append hcabe, List.take_append_drop]
    · have hlargo : e.largo = e.bytesAEscribir := if_neg (not_le.mpr hfin)
      have hfuera : e.resto.drop e.largo.toNat = [] := List.drop_of_length_le (by omega)
      have htodo : e.resto.take e.largo.toNat = e.resto := List.take_of_length_le (by omega)
      rw [hfuera, htodo, overwrite_nil]
  · next hge =>
    have hsig : (pre.length + 1) * 64 + (e.posicionInicial - 64).toNat =
        pre.length * 64 + e.posicionInicial.toNat := by omega
    simp only [hsig]

theorem editarBloques_zero {fuel : ℕ} (hn : e.bytesAEscribir ≤ 0) :
    editarBloques fuel e s = (some e, s) := by
  have hcond : (decide (0 < e.bytesAEscribir)) = false := decide_eq_false (not_lt.mpr hn)
  cases fuel <;> simp [editarBloques, Op.whileDo, hcond]

theorem editarBloques_succ {fuel : ℕ} (hn : 0 < e.bytesAEscribir) :
    editarBloques (fuel + 1) e s =
      (avanzarBloque e.escrita >>= editarBloques fuel) (e.traslado s) := by
  have hcond : (decide (0 < e.bytesAEscribir)) = true := decide_eq_true hn
  rw [editarBloques, Op.whileDo, if_pos hcond, editarBloque, Op.bind_assoc,
    Op.bind_some (escribirEnBloque_apply e s)]
  rfl

theorem traslado_disco (e : Edicion) (s : Pokedex) :
    (e.traslado s).disco.header = s.disco.header ∧
    (e.traslado s).disco.bitmap = s.disco.bitmap ∧
    (e.traslado s).disco.asignaciones = s.disco.asignaciones := by
  unfold Edicion.traslado
  split <;> exact ⟨rfl, rfl, rfl⟩

theorem avanzarBloque_datos {s' : Pokedex} {e' : Edicion} (hrun : avanzarBloque e s = (some e', s')) :
    s'.disco.datos = s.disco.datos := by
  have hdatos := mismosDatos.avanzarBloque e s
  rwa [hrun] at hdatos

theorem contenido_avanzarBloque {s' : Pokedex} {e' : Edicion} {nuevos : List ℕ} {i : ℕ}
    (hcre : Crecio raiz cad p nuevos s s') (hrun : avanzarBloque e s = (some e', s'))
    (hn : e.bytesAEscribir = 0) (hresto : (e.resto.length : ℤ) = e.bytesAEscribir) :
    contenido s'.disco (cad p ++ nuevos) =
      overwrite (contenido s.disco (cad p ++ nuevos)) i e.resto := by
  have hvacio : e.resto = [] := List.eq_nil_of_length_eq_zero (by omega)
  rw [hvacio, overwrite_nil, contenido_of_datos hcre.contenido.inicio (avanzarBloque_datos hrun)]

theorem returns_editarBloques_fin (fuel : ℕ) (h : Ocupacion s.disco raiz cad)
    (hp : cad p = pre ++ e.bloqueAEditar :: post) (hasig : e.asignaciones = s.disco.asignaciones)
    (hn : e.bytesAEscribir = 0) :
    Op.Returns (avanzarBloque e >>= editarBloques fuel) s fun e' s' => ∃ nuevos,
      Crecio raiz cad p nuevos s s' ∧ nuevos.length = 0 ∧ e'.bytesEscritos = e.bytesEscritos ∧
      ((e.resto.length : ℤ) = e.bytesAEscribir → ∀ i, contenido s'.disco (cad p ++ nuevos) =
        overwrite (contenido s.disco (cad p ++ nuevos)) i e.resto) := by
  obtain ⟨e', s', hrun, nuevos, hcre, he', _, hlen⟩ := returns_avanzarBloque h hp hasig (by omega)
  have hn' : e'.bytesAEscribir ≤ 0 := by
    rw [he']
    exact hn.le
  refine ⟨e', s', ?_, nuevos, hcre, ?_, ?_, fun hresto i => ?_⟩
  · rw [Op.bind_some hrun, editarBloques_zero hn']
  · rw [hlen, if_neg (by omega)]
  · rw [he']
  · exact contenido_avanzarBloque hcre hrun hn hresto

/-- The loop from the middle of a round on: it goes through the rest of the chain and makes
it longer by the blocks that are missing. -/
theorem returns_editarBloques_resto : ∀ (fuel : ℕ) {s : Pokedex} {cad : ℕ → List ℕ}
    {pre post : List ℕ} {e : Edicion}, Ocupacion s.disco raiz cad →
    cad p = pre ++ e.bloqueAEditar :: post → e.asignaciones = s.disco.asignaciones →
    0 ≤ e.posicionInicial → 0 ≤ e.bytesAEscribir →
    rondas e.bytesAEscribir e.posicionInicial ≤ post.length + libres s.disco →
    e.bytesAEscribir.toNat + e.posicionInicial.toNat ≤ fuel →
    Op.Returns (avanzarBloque e >>= editarBloques fuel) s fun e' s' => ∃ nuevos,
      Crecio raiz cad p nuevos s s' ∧
      nuevos.length = rondas e.bytesAEscribir e.posicionInicial - post.length ∧
      e'.bytesEscritos = e.bytesEscritos + e.bytesAEscribir ∧
      ((e.resto.length : ℤ) = e.bytesAEscribir → contenido s'.disco (cad p ++ nuevos) =
        overwrite (contenido s.disco (cad p ++ nuevos))
          ((pre.length + 1) * 64 + e.posicionInicial.toNat) e.resto) := by
  intro fuel
  induction fuel with
  | zero =>
    intro s cad pre post e h hp hasig _ hn _ hfuel
    have hn0 : e.bytesAEscribir = 0 := by omega
    obtain ⟨e', s', hrun, nuevos, hcre, hlen, hesc, hcont⟩ :=
      returns_editarBloques_fin 0 h hp hasig hn0
    refine ⟨e', s', hrun, nuevos, hcre, ?_, by omega, fun hresto => hcont hresto _⟩
    rw [hlen, rondas_of_le hn0.le, Nat.zero_sub]
  | succ fuel ih =>
    intro s cad pre post e h hp hasig hpos hn hneed hfuel
    rcases le_or_gt e.bytesAEscribir 0 with hn0 | hn0
    · obtain ⟨e', s', hrun, nuevos, hcre, hlen, hesc, hcont⟩ :=
        returns_editarBloques_fin (fuel + 1) h hp hasig (by omega)
      refine ⟨e', s', hrun, nuevos, hcre, ?_, by omega, fun hresto => hcont hresto _⟩
      rw [hlen, rondas_of_le hn0, Nat.zero_sub]
    · have hr : 0 < rondas e.bytesAEscribir e.posicionInicial := by
        rw [rondas_of_pos hn0]
        omega
      obtain ⟨e₁, s₁, hrun, nuevos, hcre, he₁, hsig, hlen⟩ :=
        returns_avanzarBloque h hp hasig (by omega)
      obtain ⟨resto, hresto⟩ := hsig hn0
      have hn₁ : e₁.bytesAEscribir = e.bytesAEscribir := by rw [he₁]
      have hpos₁ : e₁.posicionInicial = e.posicionInicial := by rw [he₁]
      have hesc₁ : e₁.bytesEscritos = e.bytesEscritos := by rw [he₁]
      have hasig₁ : e₁.asignaciones = s₁.disco.asignaciones := by rw [he₁]
      obtain ⟨hrondas, hmenos, hn₂⟩ := e₁.escrita_rondas (hn₁ ▸ hn0)
      rw [hn₁, hpos₁] at hrondas hmenos
      have hcad : (update cad p (cad p ++ nuevos)) p =
          (pre ++ [e.bloqueAEditar]) ++ e₁.bloqueAEditar :: resto := by
        rw [Function.update_self, hp, ← hresto]
        simp
      have hmem : e₁.bloqueAEditar ∈ (update cad p (cad p ++ nuevos)) p := by
        rw [hcad]
        simp
      have htras := crecio_traslado (e := e₁) hcre.ocupacion fun hlt =>
        (enSuLugar_escritura hcre.ocupacion.toMapeado (hcre.ocupacion.enRango p _ hmem)
          (hpos₁ ▸ hpos) hlt).mono fun b hb => hb ▸ hmem
      have hlib := hcre.libres_eq
      have hlib' := htras.libres_eq
      have htam := congrArg List.length hresto
      simp only [List.length_append, List.length_cons, List.length_nil] at htam hlib'
      have hocu : Ocupacion (e₁.traslado s₁).disco raiz (update cad p (cad p ++ nuevos)) := by
        have ho := htras.ocupacion
        rwa [List.append_nil, Function.update_eq_self] at ho
      have hasig₂ : e₁.escrita.asignaciones = (e₁.traslado s₁).disco.asignaciones := by
        rw [Edicion.escrita_asignaciones, hasig₁, (traslado_disco e₁ s₁).2.2]
      obtain ⟨e', s', hrun', nuevos', hcre', hlen', hesc', hcont'⟩ := ih hocu
        (hcad.trans (by rw [Edicion.escrita_bloqueAEditar])) hasig₂
        e₁.escrita_posicionInicial hn₂ (by omega) (by omega)
      have hsuma := e₁.escrita_suma
      have htodo : Crecio raiz cad p (nuevos ++ nuevos') s s' := by
        have ht := htras.trans (by
          rw [List.append_nil, Function.update_eq_self]
          exact hcre')
        exact hcre.trans (by simpa using ht)
      refine ⟨e', s', ?_, nuevos ++ nuevos', htodo, ?_, by omega, fun hresto' => ?_⟩
      · rw [Op.bind_some hrun, editarBloques_succ (hn₁ ▸ hn0)]
        exact hrun'
      · rw [List.length_append, hlen']
        rcases List.eq_nil_or_concat post with hvacio | ⟨_, _, hlleno⟩
        · rw [if_pos ⟨hn0, hvacio⟩] at hlen
          have hcero : post.length = 0 := by rw [hvacio, List.length_nil]
          omega
        · rw [if_neg (by simp [hlleno])] at hlen
          have hmas : 0 < post.length := by simp [hlleno]
          omega
      · have hresto₁ : e₁.resto = e.resto := by rw [he₁]
        have hlargo : (e₁.resto.length : ℤ) = e₁.bytesAEscribir := by rw [hresto₁, hn₁, hresto']
        have hfin : cad p ++ (nuevos ++ nuevos') =
            (pre ++ [e.bloqueAEditar]) ++ e₁.bloqueAEditar :: (resto ++ nuevos') := by
          rw [← List.append_assoc, ← List.cons_append, ← List.append_assoc, ← hcad,
            Function.update_self]
        have hnodup := (htodo.ocupacion.fat.chain p).nodup
        rw [Function.update_self] at hnodup
        have hcontenido := hcont' (e₁.escrita_resto (hn₁ ▸ hn0.le) hlargo)
        rw [Function.update_self, List.append_assoc, overwrite_traslado
          hcre.ocupacion.toMapeado hnodup hfin (hcre.ocupacion.enRango p _ hmem) (hpos₁ ▸ hpos)
          (hn₁ ▸ hn0.le) hlargo] at hcontenido
        rw [hcontenido, contenido_of_datos hcre.contenido.inicio
          (avanzarBloque_datos hrun), hpos₁, hresto₁, List.length_append,
          List.length_singleton]

theorem libresEnOrden_traslado (e : Edicion) (s : Pokedex) :
    libresEnOrden (e.traslado s).disco = libresEnOrden s.disco := by
  obtain ⟨hheader, hbitmap, _⟩ := traslado_disco e s
  unfold libresEnOrden
  rw [bloquesLibres_congr hheader hbitmap]

theorem libres_traslado (e : Edicion) (s : Pokedex) :
    libres (e.traslado s).disco = libres s.disco := by
  rw [← length_libresEnOrden, libresEnOrden_traslado, length_libresEnOrden]

theorem contenido_traslado {P : ℕ → Prop}
    (hw : e.posicionInicial < 64 → EnSuLugar s.disco.header P (e.escritura s.disco)) :
    Contenido P s (e.traslado s) := by
  unfold Edicion.traslado
  split
  · next hpos => exact Contenido.datos_escritos (hw hpos)
  · exact Contenido.refl P s

/-- The loop over a file that has a block, after its first write. Only the place of that one
depends on the sign of the position. -/
theorem returns_editarBloques (h : Ocupacion s.disco raiz cad)
    (hp : cad p = e.bloqueAEditar :: post) (hasig : e.asignaciones = s.disco.asignaciones)
    (hn : 0 < e.bytesAEscribir) {r : ℕ} (hr : rondas e.bytesAEscribir e.posicionInicial = r)
    (hneed : r ≤ (cad p).length + libres s.disco)
    {nuevos : List ℕ} (hnuevos : nuevos = (libresEnOrden s.disco).take (r - (cad p).length)) :
    Op.Returns (editarBloques (e.bytesAEscribir.toNat + e.posicionInicial.toNat) e) s
      fun e' s' => Crecio raiz cad p nuevos (e.traslado s) s' ∧
        e'.bytesEscritos = e.bytesEscritos + e.bytesAEscribir ∧
        (0 ≤ e.posicionInicial → (e.resto.length : ℤ) = e.bytesAEscribir →
          contenido s'.disco (cad p ++ nuevos) =
            overwrite (contenido s.disco (cad p ++ nuevos)) e.posicionInicial.toNat e.resto) := by
  obtain ⟨hheader, hbitmap, hasig'⟩ := traslado_disco e s
  obtain ⟨hrondas, hmenos, hn₂⟩ := e.escrita_rondas hn
  have hcard := libres_traslado e s
  have htam := congrArg List.length hp
  rw [List.length_cons] at htam
  obtain ⟨fuel, hfuel⟩ :
      ∃ k, e.bytesAEscribir.toNat + e.posicionInicial.toNat = k + 1 :=
    Nat.exists_eq_succ_of_ne_zero (Nat.ne_of_gt (Nat.zero_lt_of_lt hmenos))
  rw [hfuel] at hmenos
  obtain ⟨e', s', hrun, nuevos', hcre, hlen, hesc, hcont⟩ := returns_editarBloques_resto fuel
    (h.congr hheader hbitmap hasig')
    (hp.trans (by rw [Edicion.escrita_bloqueAEditar, List.nil_append]))
    (by rw [Edicion.escrita_asignaciones, hasig, hasig']) e.escrita_posicionInicial hn₂
    (by rw [hcard]; omega) (Nat.le_of_lt_succ hmenos)
  have hnuevos' : nuevos' = nuevos := by
    have hk : r - (cad p).length = nuevos'.length := by
      rw [hlen, htam, ← hr, hrondas]
      omega
    rw [hnuevos, hk, ← libresEnOrden_traslado e s]
    exact hcre.nuevos_eq
  subst hnuevos'
  have hsuma := e.escrita_suma
  refine ⟨e', s', ?_, hcre, by rw [hesc, hsuma], fun hpos hresto => ?_⟩
  · rw [hfuel, editarBloques_succ hn]
    exact hrun
  · have hlt : e.bloqueAEditar < s.disco.header.dataBlocks := h.enRango p _ (by simp [hp])
    have hxs : cad p ++ nuevos' = [] ++ e.bloqueAEditar :: (post ++ nuevos') := by
      rw [hp, List.nil_append, List.cons_append]
    have hnodup := (hcre.ocupacion.fat.chain p).nodup
    rw [Function.update_self] at hnodup
    rw [hcont (e.escrita_resto hn.le hresto), overwrite_traslado h.toMapeado hnodup hxs hlt hpos
      hn.le hresto, List.length_nil, Nat.zero_mul, Nat.zero_add]

/-- The state in which the loop is once its first write is made, if it makes one. -/
def trasPrimera (s : Pokedex) (b : ℕ) (n pos : ℤ) (edicion : List UInt8) : Pokedex :=
  if 0 < n then Edicion.traslado ⟨b, n, pos, 0, edicion, s.disco.asignaciones⟩ s else s

/-- The whole function, when there are blocks for all its rounds: it takes the first block, it
makes its first write, wherever that falls, and from there on it stays in the chain. -/
theorem returns_editarArchivoInterna_partes {descriptor : OsadaFile} {n pos : ℤ}
    (edicion : List UInt8) (h : Ocupacion s.disco raiz cad) (hraiz : raiz p = descriptor.firstBlock)
    (hcheck : u32 n ≤ u32 (descriptor.fileSize - pos + obtenerBloquesLibres s.disco * 64))
    (hneed : max 1 (rondas n pos) ≤ (cad p).length + libres s.disco)
    {nuevos : List ℕ}
    (hnuevos : nuevos = (libresEnOrden s.disco).take (max 1 (rondas n pos) - (cad p).length)) :
    Op.Returns (editarArchivoInterna descriptor n pos edicion) s fun r s' =>
      ∃ b post s₁ nuevos₁ nuevos₂, nuevos₁ ++ nuevos₂ = nuevos ∧ cad p ++ nuevos = b :: post ∧
        Crecio (update raiz p b) cad p nuevos₁ s s₁ ∧
        Crecio (update raiz p b) (update cad p (cad p ++ nuevos₁)) p nuevos₂
          (trasPrimera s₁ b n pos edicion) s' ∧
        (0 ≤ pos → (edicion.length : ℤ) = n → contenido s'.disco (cad p ++ nuevos) =
          overwrite (contenido s.disco (cad p ++ nuevos)) pos.toNat edicion) ∧
        r = (max n 0, { descriptor with firstBlock := b }) := by
  obtain ⟨⟨b, asig⟩, s₁, hrun, nuevos₁, post, hasig, hcre, hbp, hlen₁⟩ :=
    returns_primerBloque (p := p) h (by omega)
  simp only at hasig hcre hbp
  subst hasig
  have hdatos := mismosDatos.primerBloque (raiz p) s.disco.asignaciones s
  rw [hrun] at hdatos
  have hcont₁ := contenido_of_datos hcre.contenido.inicio hdatos
  rw [editarArchivoInterna, Op.Returns, Op.get_bind, if_neg (not_lt.mpr hcheck), ← hraiz,
    Op.bind_some hrun]
  rcases le_or_gt n 0 with hn | hn
  · have hnuevos₁ : nuevos₁ = nuevos := by
      rw [hnuevos, rondas_of_le hn, Nat.max_eq_left (Nat.zero_le 1), ← hlen₁, ← hcre.nuevos_eq]
    refine ⟨(0, { descriptor with firstBlock := b }), s₁, Op.bind_some (editarBloques_zero hn),
      b, post, s₁, nuevos₁, [], by rw [List.append_nil, hnuevos₁], hnuevos₁ ▸ hbp, hcre, ?_,
      fun _ hlargo => ?_, by rw [max_eq_right hn]⟩
    · rw [trasPrimera, if_neg (not_lt.mpr hn)]
      exact Crecio.refl hcre.ocupacion p
    · have hvacio : edicion = [] := List.eq_nil_of_length_eq_zero (by omega)
      rw [hcont₁, hvacio, overwrite_nil]
  · have hr : 1 ≤ rondas n pos := by
      rw [rondas_of_pos hn]
      exact le_max_left _ _
    rw [Nat.max_eq_right hr] at hneed hnuevos
    have hlib₁ := hcre.libres_eq
    have htam := congrArg List.length hbp
    rw [List.length_append, List.length_cons] at htam
    set nuevos₂ := (libresEnOrden s₁.disco).take (rondas n pos - (post.length + 1)) with hnuevos₂
    have htodos : nuevos₁ ++ nuevos₂ = nuevos := by
      rw [hnuevos, ← hcre.reserva, List.take_append, hnuevos₂]
      congr 1
      · exact (List.take_of_length_le (by omega)).symm
      · congr 1
        omega
    have hcad : update cad p (cad p ++ nuevos₁) p = b :: post := by
      rw [Function.update_self, hbp]
    obtain ⟨e', s', hrun', hcre', hesc, hcont⟩ := returns_editarBloques hcre.ocupacion
      (e := ⟨b, n, pos, 0, edicion, s₁.disco.asignaciones⟩) hcad rfl hn rfl
      (by rw [hcad, List.length_cons]; simp only; omega) (by rw [hcad, List.length_cons])
    refine ⟨(e'.bytesEscritos, { descriptor with firstBlock := b }), s', Op.bind_some hrun',
      b, post ++ nuevos₂, s₁, nuevos₁, nuevos₂, htodos, ?_, hcre, ?_, fun hpos hlargo => ?_, ?_⟩
    · rw [← htodos, ← List.append_assoc, hbp, List.cons_append]
    · rw [trasPrimera, if_pos hn]
      exact hcre'
    · have hcontenido := hcont hpos hlargo
      rw [Function.update_self, List.append_assoc, htodos, hcont₁] at hcontenido
      exact hcontenido
    · rw [hesc, max_eq_left hn.le, zero_add]

/-- The function when its first write is in its place as well. -/
theorem returns_editarArchivoInterna {descriptor : OsadaFile} {n pos : ℤ} {edicion : List UInt8}
    (h : Ocupacion s.disco raiz cad) (hraiz : raiz p = descriptor.firstBlock)
    (hcheck : u32 n ≤ u32 (descriptor.fileSize - pos + obtenerBloquesLibres s.disco * 64))
    (hneed : max 1 (rondas n pos) ≤ (cad p).length + libres s.disco)
    {nuevos : List ℕ}
    (hnuevos : nuevos = (libresEnOrden s.disco).take (max 1 (rondas n pos) - (cad p).length))
    (hw : 0 < n → pos < 64 → ∀ b post, cad p ++ nuevos = b :: post →
      EnSuLugar s.disco.header (· ∈ cad p ++ nuevos)
        (Edicion.escritura ⟨b, n, pos, 0, edicion, s.disco.asignaciones⟩ s.disco)) :
    Op.Returns (editarArchivoInterna descriptor n pos edicion) s fun r s' =>
      Crecio (update raiz p r.2.firstBlock) cad p nuevos s s' ∧ r.1 = max n 0 ∧
      r.2 = { descriptor with firstBlock := r.2.firstBlock } ∧
      (0 ≤ pos → (edicion.length : ℤ) = n → contenido s'.disco (cad p ++ nuevos) =
        overwrite (contenido s.disco (cad p ++ nuevos)) pos.toNat edicion) := by
  obtain ⟨r, s', hrun, b, post, s₁, nuevos₁, nuevos₂, htodos, hbp, hcre, hcre', hbytes, rfl⟩ :=
    returns_editarArchivoInterna_partes edicion h hraiz hcheck hneed hnuevos
  have hcont : Contenido (· ∈ cad p ++ nuevos) s₁ (trasPrimera s₁ b n pos edicion) := by
    unfold trasPrimera
    split
    · next hn =>
      apply contenido_traslado
      intro hpos
      have hw' := hw hn hpos b post hbp
      rwa [Edicion.escritura, ← hcre.contenido.inicio, ← hcre.contenido.header] at hw'
    · exact Contenido.refl _ s₁
  have hres : libresEnOrden (trasPrimera s₁ b n pos edicion).disco =
      libresEnOrden s₁.disco := by
    unfold trasPrimera
    split
    · exact libresEnOrden_traslado _ s₁
    · rfl
  have hocu := hcre'.ocupacion
  rw [Function.update_self, Function.update_idem, List.append_assoc, htodos] at hocu
  have hcont' := hcre'.contenido
  rw [Function.update_self, List.append_assoc, htodos] at hcont'
  refine ⟨_, s', hrun, ⟨hocu, ?_, ?_⟩, rfl, rfl, hbytes⟩
  · rw [← htodos, List.append_assoc, hcre'.reserva, hres, hcre.reserva]
  · refine ((hcre.contenido.mono fun c hc => ?_).trans hcont).trans hcont'
    rw [← htodos, ← List.append_assoc]
    exact List.mem_append_left _ hc

end Rondas

/-! ## Writes out of place -/

theorem crece_traslado (e : Edicion) (s : Pokedex) : Crece s (e.traslado s) := by
  unfold Edicion.traslado
  split
  · exact Crece.escribir s _
  · exact Crece.refl s

theorem crece_editarBloques (fuel : ℕ) (e : Edicion) :
    Op.Keeps Crece (editarBloques fuel e) := by
  refine Op.Keeps.whileDo Crece.refl Crece.trans (fun e => ?_) fuel e
  refine crece.bind (fun s => ?_) crece.avanzarBloque
  rw [escribirEnBloque_apply]
  exact crece_traslado e s

theorem crece_editarArchivoInterna (descriptor : OsadaFile) (n pos : ℤ) (edicion : List UInt8) :
    Op.Keeps Crece (editarArchivoInterna descriptor n pos edicion) := by
  rw [editarArchivoInterna]
  refine crece.bind (crece.get _) fun d => ?_
  split
  · exact crece.pure _
  · refine crece.bind (crece.primerBloque _ _) fun r => ?_
    exact crece.bind (crece_editarBloques _ _) fun _ => crece.pure _

section Falta
variable {s : Pokedex} {raiz : ℕ → ℕ} {cad : ℕ → List ℕ} {p : ℕ} {pre post : List ℕ}
  {e : Edicion}

/-- The round at the end of a chain, once every block is taken. -/
theorem avanzarBloque_lleno {j : ℕ} (h : Lleno s.disco j)
    (hlt : e.bloqueAEditar < s.disco.header.dataBlocks + j)
    (hmax : s.disco.header.fsBlocks + j < 2147483648)
    (hfin : e.asignaciones e.bloqueAEditar = uint32Max) (hn : 0 < e.bytesAEscribir) :
    (j < relleno s.disco.header → ∃ e' s', avanzarBloque e s = (some e', s') ∧
      s'.disco.header = s.disco.header ∧ Lleno s'.disco (j + 1) ∧
      e'.bloqueAEditar = s.disco.header.dataBlocks + j ∧
      e'.asignaciones e'.bloqueAEditar = uint32Max ∧
      e'.bytesAEscribir = e.bytesAEscribir ∧ e'.posicionInicial = e.posicionInicial ∧
      e'.bytesEscritos = e.bytesEscritos) ∧
    (relleno s.disco.header ≤ j → (avanzarBloque e s).1 = none) := by
  have hsum := h.suma
  have hne : e.bloqueAEditar ≠ uint32Max := by
    unfold uint32Max
    omega
  rw [avanzarBloque, if_neg hne, if_pos ⟨hfin, hn⟩]
  constructor
  · intro hj
    obtain ⟨s', hrun, hheader, hlleno⟩ := h.pedirBloqueSiguiente_toma hj hmax hne e.asignaciones
    refine ⟨_, s', Op.bind_some hrun, hheader, hlleno, rfl, ?_, rfl, rfl, rfl⟩
    exact Function.update_self _ _ _
  · intro hj
    exact Op.bind_fst_none (h.pedirBloqueSiguiente_nada hj hne e.asignaciones)

theorem avanzarBloque_fin (hne : e.bloqueAEditar ≠ uint32Max) (hn : e.bytesAEscribir ≤ 0) :
    ∃ e', avanzarBloque e s = (some e', s) ∧ e'.bytesAEscribir = e.bytesAEscribir ∧
      e'.bytesEscritos = e.bytesEscritos := by
  rw [avanzarBloque, if_neg hne, if_neg fun hc => absurd hc.2 (not_lt.mpr hn)]
  exact ⟨_, rfl, rfl, rfl⟩

theorem Lleno.traslado {j : ℕ} (h : Lleno s.disco j) (e : Edicion) :
    Lleno (e.traslado s).disco j := by
  unfold Edicion.traslado
  split
  · exact ⟨h.toMedido.congr rfl rfl, h.ocupados, h.altos⟩
  · exact h

/-- The loop at the end of a chain, once every block is taken: each round that is left takes one
of the bits that stand for no block. -/
theorem editarBloques_lleno : ∀ (fuel : ℕ) {s : Pokedex} {e : Edicion} {j : ℕ}, Lleno s.disco j →
    e.bloqueAEditar < s.disco.header.dataBlocks + j →
    e.asignaciones e.bloqueAEditar = uint32Max → 0 ≤ e.bytesAEscribir →
    s.disco.header.fsBlocks + j + rondas e.bytesAEscribir e.posicionInicial < 2147483648 →
    e.bytesAEscribir.toNat + e.posicionInicial.toNat ≤ fuel → j ≤ relleno s.disco.header →
    (j + rondas e.bytesAEscribir e.posicionInicial ≤ relleno s.disco.header →
      Op.Returns (avanzarBloque e >>= editarBloques fuel) s fun e' _ =>
        e'.bytesEscritos = e.bytesEscritos + e.bytesAEscribir) ∧
    (relleno s.disco.header < j + rondas e.bytesAEscribir e.posicionInicial →
      ((avanzarBloque e >>= editarBloques fuel) s).1 = none) := by
  intro fuel
  induction fuel with
  | zero =>
    intro s e j h hlt _ hn hmax hfuel hj
    have hn0 : e.bytesAEscribir = 0 := by omega
    rw [rondas_of_le hn0.le]
    refine ⟨fun _ => ?_, fun hno => absurd hno (Nat.not_lt.mpr hj)⟩
    have hsum := h.suma
    obtain ⟨e', hrun, hesc⟩ := avanzarBloque_fin (s := s) (e := e)
      (by unfold uint32Max; omega) hn0.le
    exact ⟨e', s, (Op.bind_some hrun).trans (editarBloques_zero (by omega)), by omega⟩
  | succ fuel ih =>
    intro s e j h hlt hfin hn hmax hfuel hj
    have hsum := h.suma
    rcases le_or_gt e.bytesAEscribir 0 with hn0 | hn0
    · rw [rondas_of_le hn0]
      refine ⟨fun _ => ?_, fun hno => absurd hno (Nat.not_lt.mpr hj)⟩
      obtain ⟨e', hrun, hesc⟩ := avanzarBloque_fin (s := s) (e := e)
        (by unfold uint32Max; omega) hn0
      exact ⟨e', s, (Op.bind_some hrun).trans (editarBloques_zero (by omega)), by omega⟩
    · obtain ⟨htoma, hnada⟩ := avanzarBloque_lleno h hlt (by omega) hfin hn0
      have hr : 1 ≤ rondas e.bytesAEscribir e.posicionInicial := by
        rw [rondas_of_pos hn0]
        exact le_max_left _ _
      rcases hj.lt_or_eq with hmas | hcero
      · obtain ⟨e₁, s₁, hrun, hheader, hlleno, hbloque, hfin₁, hn₁, hpos₁, hesc₁⟩ := htoma hmas
        obtain ⟨hrondas, hmenos, hn₂⟩ := e₁.escrita_rondas (hn₁ ▸ hn0)
        rw [hn₁, hpos₁] at hrondas hmenos
        obtain ⟨hheader', _, _⟩ := traslado_disco e₁ s₁
        rw [hheader] at hheader'
        obtain ⟨hvuelve, hcae⟩ := ih (hlleno.traslado e₁)
          (by rw [Edicion.escrita_bloqueAEditar, hbloque, hheader']; omega)
          (by rw [Edicion.escrita_bloqueAEditar, Edicion.escrita_asignaciones, hfin₁]) hn₂
          (by rw [hheader']; omega) (by omega) (by rw [hheader']; exact hmas)
        have hsuma := e₁.escrita_suma
        rw [hheader'] at hvuelve hcae
        rw [Op.Returns, Op.bind_some hrun, editarBloques_succ (hn₁ ▸ hn0)]
        refine ⟨fun hay => ?_, fun hno => hcae (by omega)⟩
        exact (hvuelve (by omega)).mono fun e' _ hesc => by omega
      · refine ⟨fun hay => absurd hay (by omega), fun _ => ?_⟩
        exact Op.bind_fst_none (hnada hcero.ge)

/-- A run that asks for more blocks than there are: it writes out of place, and `hay` is what it
takes for it to come back, with `Q` of what it returns. -/
structure Falta {α : Type} (x : Op Pokedex α) (s : Pokedex) (hay : Prop) (Q : α → Prop) :
    Prop where
  sale : Sale x s
  vuelve : hay → Op.Returns x s fun a _ => Q a
  cae : ¬ hay → (x s).1 = none

theorem Falta.congr {α : Type} {x y : Op Pokedex α} {hay : Prop} {Q : α → Prop}
    (heq : x s = y s) (h : Falta y s hay Q) : Falta x s hay Q := by
  obtain ⟨⟨q, v, hq, hw⟩, hvuelve, hcae⟩ := h
  rw [Escribe, ← heq] at hw
  rw [Op.Returns, ← heq] at hvuelve
  rw [← heq] at hcae
  exact ⟨⟨q, v, hq, hw⟩, hvuelve, hcae⟩

theorem falta_editarBloques_succ {fuel : ℕ} {hay : Prop} {Q : Edicion → Prop}
    (hn : 0 < e.bytesAEscribir)
    (h : Falta (avanzarBloque e.escrita >>= editarBloques fuel) (e.traslado s) hay Q) :
    Falta (editarBloques (fuel + 1) e) s hay Q := by
  obtain ⟨⟨q, v, hq, previas, hpre, hs⟩, hvuelve, hcae⟩ := h
  rw [← editarBloques_succ hn] at hpre hcae
  rw [Op.Returns, ← editarBloques_succ hn] at hvuelve
  obtain ⟨hheader, _, _⟩ := traslado_disco e s
  exact ⟨⟨q, v, hheader ▸ hq, previas, hpre, (crece_traslado e s).2.trans hs⟩, hvuelve, hcae⟩

/-- With too few blocks the loop comes to ask for one on a full disk. -/
theorem falta_editarBloques : ∀ (fuel : ℕ) {s : Pokedex} {cad : ℕ → List ℕ}
    {pre post : List ℕ} {e : Edicion}, Ocupacion s.disco raiz cad →
    cad p = pre ++ e.bloqueAEditar :: post → e.asignaciones = s.disco.asignaciones →
    0 ≤ e.posicionInicial → 0 ≤ e.bytesAEscribir →
    post.length + libres s.disco < rondas e.bytesAEscribir e.posicionInicial →
    s.disco.header.fsBlocks + rondas e.bytesAEscribir e.posicionInicial < 2147483648 →
    e.bytesAEscribir.toNat + e.posicionInicial.toNat ≤ fuel →
    Falta (avanzarBloque e >>= editarBloques fuel) s
      (rondas e.bytesAEscribir e.posicionInicial ≤
        post.length + libres s.disco + relleno s.disco.header)
      fun e' => e'.bytesEscritos = e.bytesEscritos + e.bytesAEscribir := by
  intro fuel
  induction fuel with
  | zero =>
    intro s cad pre post e _ _ _ _ _ hfalta _ hfuel
    have hn : e.bytesAEscribir ≤ 0 := by omega
    rw [rondas_of_le hn] at hfalta
    exact absurd hfalta (Nat.not_lt_zero _)
  | succ fuel ih =>
    intro s cad pre post e h hp hasig hpos hn0 hfalta hmax hfuel
    have hn : 0 < e.bytesAEscribir := by
      by_contra hn
      rw [rondas_of_le (not_lt.mp hn)] at hfalta
      exact absurd hfalta (Nat.not_lt_zero _)
    rcases Nat.eq_zero_or_pos (post.length + libres s.disco) with hcero | hmas
    · -- the chain is at its end and no block is free
      have hpost : post = [] := List.eq_nil_of_length_eq_zero (by omega)
      have hlt := h.enRango p e.bloqueAEditar (by simp [hp])
      have hc := h.fat.chain p
      rw [hp] at hc
      have hfin := hasig ▸ hc.next_eq_stop_iff.mpr hpost
      obtain ⟨hvuelve, hcae⟩ := editarBloques_lleno (fuel + 1)
        (Lleno.of_mapeado h.toMapeado (by omega)) hlt hfin hn0 hmax hfuel (Nat.zero_le _)
      rw [hcero, Nat.zero_add]
      rw [Nat.zero_add] at hvuelve hcae
      refine ⟨Sale.bind ?_ fun _ => crece_editarBloques _ _, hvuelve,
        fun hno => hcae (Nat.lt_of_not_le hno)⟩
      rw [avanzarBloque, if_neg (h.ne_uint32Max hlt), if_pos ⟨hfin, hn⟩]
      exact Sale.bind (sale_pedirBloqueSiguiente h.toMapeado (by omega) hlt _) fun _ =>
        crece.pure _
    · obtain ⟨e₁, s₁, hrun, nuevos, hcre, he₁, hsig, _⟩ :=
        returns_avanzarBloque h hp hasig fun _ => hmas
      obtain ⟨resto, hresto⟩ := hsig hn
      have hn₁ : e₁.bytesAEscribir = e.bytesAEscribir := by rw [he₁]
      have hpos₁ : e₁.posicionInicial = e.posicionInicial := by rw [he₁]
      have hesc₁ : e₁.bytesEscritos = e.bytesEscritos := by rw [he₁]
      obtain ⟨hrondas, hmenos, hn₂⟩ := e₁.escrita_rondas (hn₁ ▸ hn)
      rw [hn₁, hpos₁] at hrondas hmenos
      obtain ⟨hheader, hbitmap, hasig'⟩ := traslado_disco e₁ s₁
      have hheader' : (e₁.traslado s₁).disco.header = s.disco.header :=
        hheader.trans hcre.contenido.header
      have hlibres := libres_traslado e₁ s₁
      have hlib := hcre.libres_eq
      have htam := congrArg List.length hresto
      rw [List.length_append, List.length_cons] at htam
      have hcad : (update cad p (cad p ++ nuevos)) p =
          (pre ++ [e.bloqueAEditar]) ++ e₁.escrita.bloqueAEditar :: resto := by
        rw [Function.update_self, hp, Edicion.escrita_bloqueAEditar, ← hresto]
        simp
      have hfalta' := ih (hcre.ocupacion.congr hheader hbitmap hasig') hcad
        (by rw [Edicion.escrita_asignaciones, hasig', he₁]) e₁.escrita_posicionInicial hn₂
        (by omega) (by rw [hheader']; omega) (by omega)
      have hsuma := e₁.escrita_suma
      rw [hheader'] at hfalta'
      obtain ⟨hsale, hvuelve, hcae⟩ := falta_editarBloques_succ (hn₁ ▸ hn) hfalta'
      refine ⟨Sale.after hrun hcre.contenido.crece hsale, fun hay => ?_, fun hno => ?_⟩
      · rw [Op.Returns, Op.bind_some hrun]
        exact (hvuelve (by omega)).mono fun e' _ hesc => by omega
      · rw [Op.bind_some hrun]
        exact hcae (by omega)

/-- The loop over the blocks of an empty file on a full disk. -/
theorem editarBloques_lleno_nuevo (n pos : ℤ) (edicion : List UInt8) {b : ℕ} (asig : ℕ → ℕ)
    (h : Lleno s.disco 1) (hb : b = s.disco.header.dataBlocks) (hfin : asig b = uint32Max)
    (hmax : s.disco.header.fsBlocks + max 1 (rondas n pos) < 2147483648)
    (hmas : 0 < relleno s.disco.header) :
    (max 1 (rondas n pos) ≤ relleno s.disco.header →
      Op.Returns (editarBloques (n.toNat + pos.toNat) ⟨b, n, pos, 0, edicion, asig⟩) s
        fun e' _ => e'.bytesEscritos = max n 0) ∧
    (relleno s.disco.header < max 1 (rondas n pos) →
      (editarBloques (n.toNat + pos.toNat) ⟨b, n, pos, 0, edicion, asig⟩ s).1 = none) := by
  rcases le_or_gt n 0 with hn | hn
  · rw [rondas_of_le hn]
    exact ⟨fun _ => ⟨_, s, editarBloques_zero hn, (max_eq_right hn).symm⟩, fun hno => by omega⟩
  · set e : Edicion := ⟨b, n, pos, 0, edicion, asig⟩ with he
    obtain ⟨hrondas, hmenos, hn₂⟩ := e.escrita_rondas hn
    have hr : rondas e.bytesAEscribir e.posicionInicial = rondas n pos := rfl
    have hsuma := e.escrita_suma
    have hcero : e.bytesEscritos + e.bytesAEscribir = n := zero_add n
    obtain ⟨hheader, _, _⟩ := traslado_disco e s
    obtain ⟨fuel, hfuel⟩ : ∃ k, n.toNat + pos.toNat = k + 1 :=
      Nat.exists_eq_succ_of_ne_zero (Nat.ne_of_gt (Nat.zero_lt_of_lt hmenos))
    have hsig : e.escrita.bytesAEscribir.toNat + e.escrita.posicionInicial.toNat ≤ fuel := by
      change _ < n.toNat + pos.toNat at hmenos
      omega
    obtain ⟨hvuelve, hcae⟩ := editarBloques_lleno fuel (h.traslado e)
      (by rw [Edicion.escrita_bloqueAEditar, hheader, ← hb]; exact Nat.lt_succ_self b)
      (by rw [Edicion.escrita_bloqueAEditar, Edicion.escrita_asignaciones]; exact hfin) hn₂
      (by rw [hheader]; omega) hsig (by rw [hheader]; exact hmas)
    rw [hheader] at hvuelve hcae
    rw [hfuel, Op.Returns, editarBloques_succ (e := e) hn, max_eq_left hn.le]
    refine ⟨fun hay => ?_, fun hno => hcae (by omega)⟩
    exact (hvuelve (by omega)).mono fun e' _ hesc => by omega

/-- The whole function, when there are not blocks for all its rounds. -/
theorem falta_editarArchivoInterna {descriptor : OsadaFile} {n pos : ℤ} {edicion : List UInt8}
    (h : Ocupacion s.disco raiz cad) (hraiz : raiz p = descriptor.firstBlock)
    (hcheck : u32 n ≤ u32 (descriptor.fileSize - pos + obtenerBloquesLibres s.disco * 64))
    (hfalta : (cad p).length + libres s.disco < max 1 (rondas n pos))
    (hmax : s.disco.header.fsBlocks + max 1 (rondas n pos) < 2147483648) :
    Falta (editarArchivoInterna descriptor n pos edicion) s
      (max 1 (rondas n pos) ≤ (cad p).length + libres s.disco + relleno s.disco.header)
      fun r => r.1 = max n 0 ∧ r.2 = { descriptor with firstBlock := r.2.firstBlock } := by
  have habre : editarArchivoInterna descriptor n pos edicion s =
      (primerBloque (raiz p) s.disco.asignaciones >>= fun r =>
        editarBloques (n.toNat + pos.toNat) ⟨r.1, n, pos, 0, edicion, r.2⟩ >>= fun e =>
          pure (e.bytesEscritos, { descriptor with firstBlock := r.1 })) s := by
    rw [editarArchivoInterna, Op.get_bind, if_neg (not_lt.mpr hcheck), ← hraiz]
  refine Falta.congr habre ?_
  rcases Nat.eq_zero_or_pos ((cad p).length + libres s.disco) with hcero | hmas
  · have hp : cad p = [] := List.eq_nil_of_length_eq_zero (by omega)
    have hlleno := Lleno.of_mapeado h.toMapeado (by omega)
    rw [primerBloque, if_pos (h.raiz_eq.mp hp), hcero, Nat.zero_add]
    have hsale := sale_pedirPrimerBloque h.toMapeado (by omega) s.disco.asignaciones
    replace hsale := hsale.bind fun r => crece.bind (crece_editarBloques (n.toNat + pos.toNat)
      ⟨r.1, n, pos, 0, edicion, r.2⟩) fun e => crece.pure
        (e.bytesEscritos, { descriptor with firstBlock := r.1 })
    rcases Nat.eq_zero_or_pos (relleno s.disco.header) with hnada | hmas
    · exact ⟨hsale, fun hay => by omega, fun _ =>
        Op.bind_fst_none (hlleno.pedirPrimerBloque_nada hnada.le _)⟩
    · obtain ⟨s₁, hrun, hheader, hlleno₁⟩ := hlleno.pedirPrimerBloque_toma hmas (by omega)
        s.disco.asignaciones
      have hfin : update s.disco.asignaciones (s.disco.header.dataBlocks + 0) uint32Max
          (s.disco.header.dataBlocks + 0) = uint32Max := Function.update_self ..
      obtain ⟨hvuelve, hcae⟩ := editarBloques_lleno_nuevo n pos edicion _ hlleno₁ (by rw [hheader]; rfl)
        hfin (by rw [hheader]; exact hmax) (by rw [hheader]; exact hmas)
      rw [hheader] at hvuelve hcae
      refine ⟨hsale, fun hay => ?_, fun hno => ?_⟩
      · obtain ⟨e', s', hrun', hesc⟩ := hvuelve hay
        exact ⟨_, s', (Op.bind_some hrun).trans (Op.bind_some hrun'), hesc, rfl⟩
      · rw [Op.bind_some hrun]
        exact Op.bind_fst_none (hcae (Nat.lt_of_not_le hno))
  · obtain ⟨⟨b, asig⟩, s₁, hrun, nuevos, post, hasig, hcre, hbp, _⟩ :=
      returns_primerBloque h hmas
    simp only at hasig hcre hbp
    subst hasig
    have hn : 0 < n := by
      by_contra hn
      rw [rondas_of_le (not_lt.mp hn)] at hfalta
      omega
    set e : Edicion := ⟨b, n, pos, 0, edicion, s₁.disco.asignaciones⟩ with he
    obtain ⟨hrondas, hmenos, hn₂⟩ := e.escrita_rondas hn
    obtain ⟨hheader, hbitmap, hasig'⟩ := traslado_disco e s₁
    have hheader' : (e.traslado s₁).disco.header = s.disco.header :=
      hheader.trans hcre.contenido.header
    have hlibres := libres_traslado e s₁
    have hlib := hcre.libres_eq
    have hsuma := e.escrita_suma
    have hcero : e.bytesEscritos + e.bytesAEscribir = n := zero_add n
    have htam := congrArg List.length hbp
    rw [List.length_append, List.length_cons] at htam
    obtain ⟨fuel, hfuel⟩ : ∃ k, n.toNat + pos.toNat = k + 1 :=
      Nat.exists_eq_succ_of_ne_zero (Nat.ne_of_gt (Nat.zero_lt_of_lt hmenos))
    have hcad : (update cad p (cad p ++ nuevos)) p = [] ++ e.escrita.bloqueAEditar :: post := by
      rw [Function.update_self, hbp, Edicion.escrita_bloqueAEditar, List.nil_append]
    have hr : rondas e.bytesAEscribir e.posicionInicial = rondas n pos := rfl
    have hloop := falta_editarBloques fuel (hcre.ocupacion.congr hheader hbitmap hasig') hcad
      (by rw [Edicion.escrita_asignaciones, hasig']) e.escrita_posicionInicial hn₂
      (by omega) (by rw [hheader']; omega) (by change _ < n.toNat + pos.toNat at hmenos; omega)
    rw [hheader'] at hloop
    obtain ⟨hsale, hvuelve, hcae⟩ := falta_editarBloques_succ (e := e) hn hloop
    rw [← hfuel] at hsale hvuelve hcae
    refine ⟨Sale.after hrun hcre.contenido.crece (Sale.bind hsale fun _ => crece.pure _),
      fun hay => ?_, fun hno => ?_⟩
    · obtain ⟨e', s', hrun', hesc⟩ := hvuelve (by omega)
      refine ⟨_, s', (Op.bind_some hrun).trans (Op.bind_some hrun'), ?_, rfl⟩
      rw [hesc, hsuma, hcero, max_eq_left hn.le]
    · rw [Op.bind_some hrun]
      exact Op.bind_fst_none (hcae (by omega))

end Falta

end TpSo.Osada
