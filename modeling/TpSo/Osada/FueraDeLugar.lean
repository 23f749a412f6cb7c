import TpSo.Osada.Aislamiento

/-!
# Requests that leave their file

The other half of isolation: a request outside the condition makes, with some contents of the
memory it allocates, a write that is not in its place. The writes in question are the
descriptor of the root, at position `0xFFFF` of the table, the blocks asked for on a full disk,
and the first bytes from a negative position on.
-/

namespace TpSo.Osada

open Function (update)

section Fuera
variable {s s' : Pokedex} {raiz : ℕ → ℕ} {cad : ℕ → List ℕ} {p : ℕ} {N : ℕ → Prop}
  {basura descriptor : OsadaFile} {path : Cadena} {l : Lectura} {α β : Type}

/-- The blocks that a request about `N` may write. -/
def Propios (N : ℕ → Prop) (d d' : Disco) (b : ℕ) : Prop :=
  ∃ q, N q ∧ (BloqueDe d q b ∨ BloqueDe d' q b)

theorem Escribe.not_aislado {x : Op Pokedex α} {w : Escritura} (h : Escribe x s w)
    (hw : ¬ EnSuLugar s.disco.header (Propios N s.disco (x s).2.disco) w) :
    ¬ Aislado N s (x s).2 := by
  intro ha
  obtain ⟨ws, hws, hlugar⟩ := ha.escrituras
  obtain ⟨pre, ⟨post, hpost⟩, t, rfl⟩ := h
  rw [hws, List.append_assoc, List.append_assoc] at hpost
  refine hw (hlugar w ?_)
  rw [← List.append_cancel_left hpost]
  simp

theorem Sale.not_aislado {x : Op Pokedex α} (h : Sale x s) : ¬ Aislado N s (x s).2 := by
  obtain ⟨p, v, hp, hw⟩ := h
  exact hw.not_aislado (Nat.not_lt.mpr hp)

theorem escribe_ultima {x : Op Pokedex α} {r : Option α} {s₁ : Pokedex} {w : Escritura}
    (hx : x s = (r, s₁.escribir w)) (hc : Crece s s₁) : Escribe x s w := by
  refine ⟨s₁.escrituras, ?_, hc.2⟩
  rw [hx]
  exact List.prefix_refl _

/-- There is no slot at the position of the root. -/
theorem not_aislado_raiz {x : Op Pokedex α} {r : Option α} {s₁ : Pokedex} {e : OsadaFile}
    (hx : x s = (r, s₁.escribir (.descriptor posicionBarra e))) (hc : Crece s s₁) :
    ¬ Aislado N s (x s).2 :=
  (escribe_ultima hx hc).not_aislado (show ¬ posicionBarra < 2048 by decide)

theorem crece_reemplazar (p : ℕ) (e : OsadaFile) :
    Op.Keeps Crece (reemplazarEstructuraDeArchivo p e) := fun s => Crece.escribir s _

theorem crece_completarTruncado (p : ℕ) (d : OsadaFile) (n : ℤ) :
    Op.Keeps Crece (completarTruncado p d n) := by
  rw [completarTruncado]
  split
  · exact crece.bind (crece_editarArchivoInterna _ _ _ _) fun _ => crece_reemplazar _ _
  · exact crece.bind (crece.pure _) fun _ => crece_reemplazar _ _

/-! ## Writing -/

theorem sale_confirmarEditar {n pos : ℤ} {datos : List UInt8}
    (hr : l.resultado = .archivoExiste) (hd : l.descriptor = some descriptor)
    (hp : l.posicion < 2048) (h : Sale (editarArchivoInterna descriptor n pos datos) s) :
    Sale (confirmarEditar l pos n datos) s := by
  rw [confirmarEditar_entrada n pos datos hr hd hp]
  refine Sale.bind h fun r => ?_
  split
  · exact crece.pure _
  · exact crece.bind (crece_reemplazar _ _) fun _ => crece.pure _

/-- A write that finds its blocks, with nothing assumed of the place of its first bytes. -/
theorem confirmarEditar_partes {n pos : ℤ} (datos : List UInt8)
    (hr : l.resultado = .archivoExiste) (hd : l.descriptor = some descriptor)
    (hp : l.posicion < 2048)
    (h : Ocupacion s.disco raiz cad) (hraiz : raiz l.posicion = descriptor.firstBlock)
    (hcheck : u32 n ≤ u32 (descriptor.fileSize - pos + obtenerBloquesLibres s.disco * 64))
    (hneed : max 1 (rondas n pos) ≤ (cad l.posicion).length + libres s.disco)
    {nuevos : List ℕ} (hnuevos : nuevos =
      (libresEnOrden s.disco).take (max 1 (rondas n pos) - (cad l.posicion).length)) :
    ∃ b post s₁ nuevos₁ nuevos₂ s₂ e, cad l.posicion ++ nuevos = b :: post ∧
      nuevos₁ ++ nuevos₂ = nuevos ∧ Crecio (update raiz l.posicion b) cad l.posicion nuevos₁ s s₁ ∧
      Crecio (update raiz l.posicion b) (update cad l.posicion (cad l.posicion ++ nuevos₁))
        l.posicion nuevos₂ (trasPrimera s₁ b n pos datos) s₂ ∧ e.firstBlock = b ∧
      confirmarEditar l pos n datos s =
        (some (max n 0), s₂.escribir (.descriptor l.posicion e)) := by
  obtain ⟨r, s₂, hrun, b, post, s₁, nuevos₁, nuevos₂, hpartes, hbp, hcre, hcre', _, rfl⟩ :=
    returns_editarArchivoInterna_partes datos h hraiz hcheck hneed hnuevos
  have hne : max n 0 ≠ noHayEspacio := by
    unfold noHayEspacio
    omega
  refine ⟨b, post, s₁, nuevos₁, nuevos₂, s₂, { descriptor with
    firstBlock := b, fileSize := tamanioEditado descriptor.fileSize pos n }, hbp, hpartes, hcre,
    hcre', rfl, ?_⟩
  rw [confirmarEditar_entrada n pos datos hr hd hp, Op.bind_some hrun]
  simp only [if_neg hne]
  rfl

theorem escribe_primera {x : Op Pokedex α} {r : Option α} {n pos : ℤ} {datos : List UInt8}
    {raiz' : ℕ → ℕ} {cad' : ℕ → List ℕ} {b q : ℕ} {nuevos₁ nuevos₂ : List ℕ} {s₁ s₂ : Pokedex}
    {e : OsadaFile} (hcre : Crecio raiz cad p nuevos₁ s s₁)
    (hcre' : Crecio raiz' cad' p nuevos₂ (trasPrimera s₁ b n pos datos) s₂)
    (hx : x s = (r, s₂.escribir (.descriptor q e))) (hn : 0 < n) (hpos : pos < 64) :
    Escribe x s (Edicion.escritura ⟨b, n, pos, 0, datos, s.disco.asignaciones⟩ s.disco) := by
  have hprimera : trasPrimera s₁ b n pos datos = s₁.escribir
      (Edicion.escritura ⟨b, n, pos, 0, datos, s.disco.asignaciones⟩ s.disco) := by
    rw [trasPrimera, if_pos hn, Edicion.traslado, if_pos hpos, Edicion.escritura,
      Edicion.escritura, hcre.contenido.inicio]
    rfl
  refine ⟨s₁.escrituras, ?_, hcre.contenido.crece.2⟩
  have hlargo := hcre'.contenido.crece.2
  rw [hprimera, Pokedex.escribir_escrituras] at hlargo
  rw [hx]
  exact hlargo.trans (List.prefix_append _ _)

theorem nombra_unica (hl : leerPath s.disco basura path = some l) {q : ℕ}
    (hq : Nombra s.disco path q) : ¬ EsRaiz path ∧ q = l.posicion := by
  obtain ⟨hlt, l', hl', _, rfl⟩ := hq
  have hraiz : ¬ EsRaiz path := by
    intro hraiz
    rw [leerPath_raiz hraiz, Option.some.injEq] at hl'
    rw [← hl'] at hlt
    exact absurd hlt (by decide)
  rw [leerPath_basura hraiz .borrado, hl', Option.some.injEq] at hl
  exact ⟨hraiz, by rw [hl]⟩

/-- A request about a path owns no block but those of its slot, and about the root none. -/
theorem propios_nombra {d' : Disco} {xs : List ℕ} (hl : leerPath s.disco basura path = some l)
    (hantes : ¬ EsRaiz path → ∀ b, BloqueDe s.disco l.posicion b → b ∈ xs)
    (hdespues : ¬ EsRaiz path → ∀ b, BloqueDe d' l.posicion b → b ∈ xs) {b : ℕ}
    (h : Propios (Nombra s.disco path) s.disco d' b) : b ∈ xs := by
  obtain ⟨q, hq, hb⟩ := h
  obtain ⟨hraiz, rfl⟩ := nombra_unica hl hq
  exact hb.elim (hantes hraiz b) (hdespues hraiz b)

/-- The blocks of slot `p` when its descriptor is the last thing written. -/
theorem bloqueDe_escribir {s₂ : Pokedex} {e : OsadaFile} {xs : List ℕ} (hp : p < 2048)
    (hc : Chain s₂.disco.asignaciones uint32Max e.firstBlock xs) {b : ℕ}
    (hb : BloqueDe (s₂.escribir (.descriptor p e)).disco p b) : b ∈ xs := by
  obtain ⟨ys, hy, hmem⟩ := hb
  rw [Pokedex.escribir_disco, aplicar_descriptor_archivos _ hp, Function.update_self] at hy
  exact hc.unique hy ▸ hmem

theorem not_aislado_confirmarEditar {n pos : ℤ} {datos : List UInt8} (hd : BienFormado s.disco)
    (hl : leerPath s.disco basura path = some l) (hr : l.resultado = .archivoExiste)
    (hraiz : ¬ EsRaiz path) (hmax : n + pos < 4294967296)
    (hcheck : u32 n ≤ u32 ((s.disco.archivos l.posicion).fileSize - pos + libres s.disco * 64))
    (hno : ¬ EntraEscritura s.disco (s.disco.archivos l.posicion) n pos datos) :
    ¬ Aislado (Nombra s.disco path) s (confirmarEditar l pos n datos s).2 := by
  obtain ⟨hp, hdes, hvivo⟩ := leerPath_entrada hl hr hraiz
  obtain ⟨cad, hocu, hdesc⟩ := hd.ocupacion
  have hx := (hdesc.chain_iff hocu hp hvivo).mpr rfl
  have hfirst := hx.start_unique (hocu.fat.chain l.posicion)
  rw [← hocu.obtenerBloquesLibres_eq] at hcheck
  by_cases hneed : max 1 (rondas n pos) ≤ (cad l.posicion).length + libres s.disco
  · obtain ⟨b, post, s₁, nuevos₁, nuevos₂, s₂, e, hbp, hpartes, hcre, hcre', he, hrun⟩ :=
      confirmarEditar_partes datos hr hdes hp hocu hfirst.symm hcheck hneed rfl
    -- all there is left to go wrong is the first write
    have hprimera : 0 < n ∧ pos < 0 ∧ ¬ EnSuLugar s.disco.header
        (· ∈ cad l.posicion ++ (libresEnOrden s.disco).take
          (max 1 (rondas n pos) - (cad l.posicion).length))
        (Edicion.escritura ⟨b, n, pos, 0, datos, s.disco.asignaciones⟩ s.disco) := by
      by_contra hcon
      refine hno ⟨_, hx, hneed, fun hn hpos b' post' hbp' => ?_⟩
      rw [hbp, List.cons.injEq] at hbp'
      by_contra hmal
      exact hcon ⟨hn, hpos, hbp'.1 ▸ hmal⟩
    obtain ⟨hn, hpos, hmal⟩ := hprimera
    refine (escribe_primera hcre hcre' hrun hn (by omega)).not_aislado fun hlugar => hmal ?_
    refine hlugar.mono fun c hc => ?_
    rw [hrun] at hc
    refine propios_nombra hl (fun _ c hc => ?_) (fun _ c hc => bloqueDe_escribir hp ?_ hc) hc
    · obtain ⟨ys, hy, hmem⟩ := hc
      rw [(hdesc.chain_iff hocu hp hvivo).mp hy] at hmem
      exact List.mem_append_left _ hmem
    · have hc' := hcre'.ocupacion.fat.chain l.posicion
      rw [Function.update_self, Function.update_self, Function.update_self, List.append_assoc,
        hpartes] at hc'
      rw [he]
      exact hc'
  · exact (sale_confirmarEditar hr hdes hp (falta_editarArchivoInterna hocu hfirst.symm hcheck
      (Nat.lt_of_not_le hneed) (hocu.rondas_lt hmax)).sale).not_aislado

theorem crece_trasPrimera (s : Pokedex) (b : ℕ) (n pos : ℤ) (datos : List UInt8) :
    Crece s (trasPrimera s b n pos datos) := by
  unfold trasPrimera
  split
  · exact crece_traslado _ s
  · exact Crece.refl s

theorem leer_raiz (hraiz : EsRaiz path) (s : Pokedex) (basura : OsadaFile) :
    leer basura path s = (some (lecturaRaiz basura), s) := by
  rw [leer, leerPath_raiz hraiz]

/-! ## Truncating -/

theorem sale_confirmarTruncar {n : ℤ}
    (hr : l.resultado = .archivoExiste) (hd : l.descriptor = some descriptor)
    (hp : l.posicion < 2048) (h : Sale (truncarArchivoInterna descriptor (u32 n)) s) :
    Sale (confirmarTruncar l n) s := by
  rw [confirmarTruncar_entrada n hr hd hp]
  refine Sale.bind h fun r => ?_
  split
  · exact crece.bind (crece_completarTruncado _ _ _) fun _ => crece.pure _
  · exact crece.pure _

theorem sale_truncarArchivoInterna {offset : ℕ} {inicio : ℤ}
    (h : Ocupacion s.disco raiz cad) (hraiz : raiz p = descriptor.firstBlock)
    (hcheck : offset ≤ u32 (descriptor.fileSize + obtenerBloquesLibres s.disco * 64))
    (hi : i32 offset = inicio)
    (hfalta : (cad p).length + libres s.disco < bloquesDeTruncado inicio) :
    Sale (truncarArchivoInterna descriptor offset) s := by
  rw [truncarArchivoInterna]
  refine Sale.after (Op.get_apply _ _) (Crece.refl s) ?_
  rw [if_neg (Nat.not_lt.mpr hcheck), hi]
  exact sale_truncarHasta h hraiz hfalta

theorem escribe_completar {n : ℤ} {d : OsadaFile} {s₁ : Pokedex} {w : Escritura}
    (hr : l.resultado = .archivoExiste) (hd : l.descriptor = some descriptor)
    (hp : l.posicion < 2048)
    (hrun : truncarArchivoInterna descriptor (u32 n) s = (some (1, d), s₁)) (hc : Crece s s₁)
    (h : Escribe (completarTruncado l.posicion d n) s₁ w) :
    Escribe (confirmarTruncar l n) s w := by
  rw [confirmarTruncar_entrada n hr hd hp]
  refine Escribe.after hrun hc ?_
  have hif : ∀ x y : Op Pokedex ℤ, (if (1 : ℤ) = 1 then x else y) = x := fun x y => if_pos rfl
  rw [hif]
  exact Escribe.bind h fun _ => crece.pure _

theorem rellenarConEspacios_eq {n largo pos : ℤ} {d : OsadaFile}
    (hlargo : i32 (n - d.fileSize) = largo) (hpos : i32 d.fileSize = pos) :
    rellenarConEspacios d n =
      editarArchivoInterna d largo pos (List.replicate largo.toNat 0) := by
  rw [rellenarConEspacios, hlargo, hpos]

/-- A write from a negative position on does not start in the first block of a file. -/
theorem not_enSuLugar_negativo (h : Mapeado s.disco) {b size : ℕ} {n pos : ℤ} {datos : List UInt8}
    {asig : ℕ → ℕ} (hb : b < s.disco.header.dataBlocks) (hmin : 2147483648 ≤ size)
    (hmax : size < 4294967296) (hpos : pos = size - 4294967296) (hn : 0 < n)
    (hdatos : n ≤ datos.length) (hcorto : n + pos < 64) :
    ¬ EnSuLugar s.disco.header (· ∈ [b]) (Edicion.escritura ⟨b, n, pos, 0, datos, asig⟩ s.disco) := by
  have hsum := h.suma
  have hch := h.chico
  have hlargo : (Edicion.largo ⟨b, n, pos, 0, datos, asig⟩) = n := by
    unfold Edicion.largo
    exact if_neg (by simp only; omega)
  intro hlugar
  have hcero : 0 < (datos.take (Edicion.largo ⟨b, n, pos, 0, datos, asig⟩).toNat).length := by
    rw [hlargo, List.length_take]
    omega
  obtain ⟨c, hc, hlo, hhi⟩ := hlugar 0 hcero
  rw [List.mem_singleton] at hc
  subst hc
  change (s.disco.inicio + c) * 64 ≤ _ at hlo
  change _ < (s.disco.inicio + c) * 64 + 64 at hhi
  simp only [hpos, u32, Nat.add_zero] at hlo hhi
  omega

theorem completarTruncado_relleno {n : ℤ} {d : OsadaFile} {r : ℤ × OsadaFile} (q : ℕ)
    (hlt : d.fileSize < u32 n) (hrun : rellenarConEspacios d n s = (some r, s')) :
    completarTruncado q d n s =
      (some 1, s'.escribir (.descriptor q { r.2 with fileSize := u32 n })) := by
  rw [completarTruncado, if_pos hlt, Op.bind_some hrun]
  rfl

theorem sale_completarTruncado {n : ℤ} {d : OsadaFile} (q : ℕ) (hlt : d.fileSize < u32 n)
    (h : Sale (rellenarConEspacios d n) s) : Sale (completarTruncado q d n) s := by
  rw [completarTruncado, if_pos hlt]
  exact Sale.bind h fun _ => crece_reemplazar _ _

/-- The new bytes of an entry that has no block, up to a size past `INT_MAX`. -/
theorem fuera_completarTruncado {n : ℤ} {d : OsadaFile} (q : ℕ) (h : Ocupacion s.disco raiz cad)
    (hp : cad p = []) (hraiz : raiz p = d.firstBlock) (hneg : 2147483648 ≤ u32 n)
    (hlt : d.fileSize < u32 n) (hcabe : u32 n ≤ d.fileSize + libres s.disco * 64)
    (hlibres : 0 < libres s.disco) :
    Sale (completarTruncado q d n) s ∨ ∃ s₂ e b w,
      completarTruncado q d n s = (some 1, s₂.escribir (.descriptor q e)) ∧ Crece s s₂ ∧
      Chain s₂.disco.asignaciones uint32Max e.firstBlock [b] ∧
      Escribe (completarTruncado q d n) s w ∧ ¬ EnSuLugar s.disco.header (· ∈ [b]) w := by
  have hsum := h.suma
  have hch := h.chico
  have hle := libres_le s.disco
  have hu := u32_lt n
  have hlargo : i32 (n - d.fileSize) = u32 n - d.fileSize := by
    unfold i32 u32 at *
    omega
  have hespacio := h.obtenerBloquesLibres_eq
  obtain ⟨pos, hpos⟩ : ∃ pos, i32 d.fileSize = pos := ⟨_, rfl⟩
  have hrellena := rellenarConEspacios_eq hlargo hpos
  set largo : ℤ := u32 n - d.fileSize with hlargo'
  set ceros := List.replicate largo.toNat (0 : UInt8) with hceros
  have hcheck : u32 largo ≤ u32 (d.fileSize - pos + obtenerBloquesLibres s.disco * 64) := by
    have hu₁ : (u32 largo : ℤ) = largo := u32_of_lt (by omega) (by omega)
    have hu₂ : (u32 (libres s.disco * 64) : ℤ) = libres s.disco * 64 :=
      u32_of_lt (by omega) (by omega)
    rw [hespacio, ← hpos, u32_sub_i32]
    omega
  have hn : 0 < largo := by omega
  have hrondas : rondas largo pos = max 1 ((largo + pos + 63) / 64).toNat := rondas_of_pos hn
  rcases Nat.lt_or_ge d.fileSize 2147483648 with hchico | hgrande
  · -- the position is that of the old size, and the blocks up to there are missing
    have hpos' : pos = d.fileSize := by
      rw [← hpos]
      exact i32_natCast_of_lt hchico
    left
    refine sale_completarTruncado q hlt ?_
    rw [hrellena]
    refine (falta_editarArchivoInterna h hraiz hcheck ?_ (h.rondas_lt (by omega))).sale
    rw [hp, List.length_nil, hrondas]
    omega
  · -- the position is negative
    have hpos' : pos = d.fileSize - 4294967296 := by
      rw [← hpos]
      unfold i32
      split <;> omega
    right
    have huno : max 1 (rondas largo pos) = 1 := by
      rw [hrondas]
      omega
    obtain ⟨r, s₂, hrun, b, post, s₁, nuevos₁, nuevos₂, hpartes, hbp, hcre, hcre', _, rfl⟩ :=
      returns_editarArchivoInterna_partes ceros h hraiz hcheck
        (by rw [huno, hp, List.length_nil]; omega) rfl
    rw [huno, hp, List.length_nil, List.nil_append] at hbp
    rw [huno, hp, List.length_nil] at hpartes
    have hlista : (libresEnOrden s.disco).take (1 - 0) = [b] := by
      have hlen := congrArg List.length hbp
      rw [List.length_take, length_libresEnOrden, List.length_cons] at hlen
      rw [hbp, List.eq_nil_of_length_eq_zero (show post.length = 0 by omega)]
    have hmem : b ∈ libresEnOrden s.disco := List.mem_of_mem_take (hlista ▸ List.mem_singleton_self b)
    have hb := (mem_bloquesLibres.mp (mem_libresEnOrden.mp hmem)).1
    rw [← hrellena] at hrun
    have hx := completarTruncado_relleno q hlt hrun
    refine ⟨s₂, _, b, _, hx, hcre.contenido.crece.trans _ _ _
      ((crece_trasPrimera _ _ _ _ _).trans _ _ _ hcre'.contenido.crece), ?_,
      escribe_primera hcre hcre' hx hn (by omega), ?_⟩
    · have hc := hcre'.ocupacion.fat.chain p
      rw [Function.update_self, Function.update_self, Function.update_self, List.append_assoc,
        hpartes, hp, List.nil_append, hlista] at hc
      exact hc
    · refine not_enSuLugar_negativo h.toMapeado hb hgrande (by omega) hpos' hn ?_ (by omega)
      rw [hceros, List.length_replicate]
      omega

/-- A truncation to a size past `INT_MAX` and past the size the entry has. -/
theorem fuera_confirmarTruncar {n inicio : ℤ}
    (hr : l.resultado = .archivoExiste) (hd : l.descriptor = some descriptor)
    (hlt : l.posicion < 2048)
    (h : Ocupacion s.disco raiz cad) (hraiz : raiz l.posicion = descriptor.firstBlock)
    (hp : cad l.posicion = [])
    (hcheck : u32 n ≤ u32 (descriptor.fileSize + obtenerBloquesLibres s.disco * 64))
    (hi : i32 (u32 n) = inicio) (hneg : 2147483648 ≤ u32 n) (hmas : descriptor.fileSize < u32 n)
    (hneed : bloquesDeTruncado inicio ≤ (cad l.posicion).length + libres s.disco)
    {q : ℕ} (hq : cad q = []) (hqp : q ≠ l.posicion) :
    Sale (confirmarTruncar l n) s ∨ ∃ s₂ e b w,
      confirmarTruncar l n s = (some 1, s₂.escribir (.descriptor l.posicion e)) ∧ Crece s s₂ ∧
      Chain s₂.disco.asignaciones uint32Max e.firstBlock [b] ∧
      Escribe (confirmarTruncar l n) s w ∧ ¬ EnSuLugar s.disco.header (· ∈ [b]) w := by
  have hsum := h.suma
  have hch := h.chico
  have hle := libres_le s.disco
  have hu := u32_lt n
  have hinicio : inicio < 0 := by
    rw [← hi]
    generalize u32 n = u at hneg hu
    unfold i32
    split <;> omega
  have hcero : bloquesPara inicio.toNat = 0 := by
    rw [Int.toNat_of_nonpos hinicio.le]
    decide
  have huno : bloquesDeTruncado inicio = 1 := by
    rw [bloquesDeTruncado, if_pos hinicio.ne, hcero]
    decide
  have hcabe : u32 n ≤ descriptor.fileSize + libres s.disco * 64 := by
    rw [h.obtenerBloquesLibres_eq] at hcheck
    have hsuma : u32 (descriptor.fileSize + libres s.disco * 64) ≤
        descriptor.fileSize + libres s.disco * 64 := by
      unfold u32
      omega
    exact hcheck.trans hsuma
  obtain ⟨⟨r, d⟩, s₁, hrun, nuevos, hocu, hlib, _, hcont, hr1, hd'⟩ :=
    returns_truncarHasta h hraiz hneed hq hqp
  rw [hcero, List.take_zero] at hocu
  rw [hcero, hp, List.length_nil, Nat.zero_add, Nat.zero_add] at hlib
  simp only at hocu hr1 hd'
  subst hr1
  rw [← hi] at hrun
  have hinterna := truncarArchivoInterna_apply hcheck hrun
  have hsize : d.fileSize = descriptor.fileSize := by rw [hd']
  have hheader := hcont.header
  rcases fuera_completarTruncado (p := l.posicion) l.posicion hocu (Function.update_self ..)
    (Function.update_self ..) hneg (by rw [hsize]; exact hmas) (by rw [hsize, hlib]; exact hcabe)
    (by rw [hlib]; rw [huno, hp] at hneed; simpa using hneed) with
    ⟨q, v, hq, hw⟩ | ⟨s₂, e, b, w, hrun', hc, hcad, hw, hmal⟩
  · exact .inl ⟨q, v, hheader ▸ hq, escribe_completar hr hd hlt hinterna hcont.crece hw⟩
  · refine .inr ⟨s₂, e, b, w, confirmarTruncar_apply hr hd hlt hinterna hrun',
      hcont.crece.trans _ _ _ hc, hcad, escribe_completar hr hd hlt hinterna hcont.crece hw, ?_⟩
    rwa [hheader] at hmal

/-- A truncation that is not turned down and does not enter. -/
theorem not_aislado_confirmarTruncar {n inicio : ℤ} (hd : BienFormado s.disco)
    (hl : leerPath s.disco basura path = some l) (hr : l.resultado = .archivoExiste)
    (hraiz : ¬ EsRaiz path)
    (hcheck : u32 n ≤ u32 ((s.disco.archivos l.posicion).fileSize + libres s.disco * 64))
    (hi : i32 (u32 n) = inicio)
    (hno : ¬ ∃ xs, Chain s.disco.asignaciones uint32Max (s.disco.archivos l.posicion).firstBlock xs ∧
      bloquesDeTruncado inicio ≤ xs.length + libres s.disco ∧
      (u32 n ≤ (s.disco.archivos l.posicion).fileSize ∨ u32 n < 2147483648)) :
    ¬ Aislado (Nombra s.disco path) s (confirmarTruncar l n s).2 := by
  obtain ⟨hp, hdes, hvivo⟩ := leerPath_entrada hl hr hraiz
  obtain ⟨cad, hocu, hdesc⟩ := hd.ocupacion
  have hx := (hdesc.chain_iff hocu hp hvivo).mpr rfl
  have hfirst := hx.start_unique (hocu.fat.chain l.posicion)
  have hespacio := hocu.obtenerBloquesLibres_eq
  by_cases hneed : bloquesDeTruncado inicio ≤ (cad l.posicion).length + libres s.disco
  · obtain ⟨hlt, hneg⟩ : (s.disco.archivos l.posicion).fileSize < u32 n ∧ 2147483648 ≤ u32 n := by
      by_contra hcon
      exact hno ⟨_, hx, hneed, by omega⟩
    -- a file this short has no such size to ask for
    have hdir : (s.disco.archivos l.posicion).state ≠ .regular := by
      intro hreg
      obtain ⟨htam, hchico⟩ := hdesc.tamanio hocu hp hreg
      have hle := u32_of_lt (x := (s.disco.archivos l.posicion).fileSize + libres s.disco * 64)
        (by omega) (by omega)
      omega
    have hvacia := hocu.cad_eq_nil (i := l.posicion) fun h => hdir h.2
    rw [← hespacio] at hcheck
    rcases fuera_confirmarTruncar (q := 2048) hr hdes hp hocu hfirst.symm hvacia hcheck hi hneg hlt
      hneed (hocu.cad_eq_nil (by omega)) (by omega) with
      hsale | ⟨s₂, e, b, w, hrun, _, hcad, hw, hmal⟩
    · exact hsale.not_aislado
    · refine hw.not_aislado fun hlugar => hmal (hlugar.mono fun c hc => ?_)
      rw [hrun] at hc
      refine propios_nombra hl (fun _ c hc => ?_) (fun _ c hc => bloqueDe_escribir hp hcad hc) hc
      obtain ⟨ys, hy, hmem⟩ := hc
      rw [(hdesc.chain_iff hocu hp hvivo).mp hy, hvacia] at hmem
      exact absurd hmem List.not_mem_nil
  · rw [← hespacio] at hcheck
    exact (sale_confirmarTruncar hr hdes hp (sale_truncarArchivoInterna hocu hfirst.symm hcheck hi
      (Nat.lt_of_not_le hneed))).not_aislado

/-! ## The other operations on the empty path -/

theorem not_aislado_utimens_raiz (hvacio : path.1 = []) (segundos : ℤ) :
    ¬ Aislado N s (osadaUtimens basura path segundos s).2 := by
  have hbarra : path.1 ≠ [barra] := by simp [hvacio]
  have hrun : osadaUtimens basura path segundos s = (some 1, s.escribir (.descriptor posicionBarra
      { descriptorRaiz basura with lastmod := u32 segundos })) := by
    rw [osadaUtimens, Op.bind_some (leer_raiz (.inr hvacio) s basura)]
    exact (congrFun (if_pos hbarra) s).trans (Op.bind_some rfl)
  exact not_aislado_raiz hrun (Crece.refl s)

theorem not_aislado_eliminar_raiz (hd : BienFormado s.disco) (hvacio : path.1 = [])
    (hhijos : tieneHijos s.disco.archivos posicionBarra = false) :
    ¬ Aislado N s (osadaEliminarArchivo basura path 0 s).2 := by
  have hbarra : path.1 ≠ [barra] := by simp [hvacio]
  obtain ⟨cad, hocu, _⟩ := hd.ocupacion
  have hraiz : s.disco.raiz posicionBarra = (descriptorRaiz basura).raiz :=
    raiz_otro fun h => absurd h.1 (by decide)
  have hlibre : ¬ ((0 : ℕ) = 0 ∧ tieneHijos s.disco.archivos posicionBarra = true) := by
    simp [hhijos]
  obtain ⟨r, s', hrun, _, s₁, rfl, hcont, _⟩ := returns_eliminarArchivoInterna hocu hraiz hlibre
  have helimina : osadaEliminarArchivo basura path 0 s =
      (some r, s₁.escribir (.descriptor posicionBarra
        { descriptorRaiz basura with state := .deleted })) := by
    rw [osadaEliminarArchivo, Op.bind_some (Op.get_apply _ _),
      Op.bind_some (leer_raiz (.inr hvacio) s basura)]
    exact (congrFun (if_pos hbarra) s).trans hrun
  exact not_aislado_raiz helimina hcont.crece

theorem not_aislado_renombrar_raiz {nuevoNombre : Cadena} {nuevo : Lectura}
    (hvacio : path.1 = []) (hl : leerPath s.disco basura nuevoNombre = some nuevo)
    (hr : nuevo.resultado = .archivoNoPathValido) :
    ¬ Aislado N s (osadaRenombrarArchivo basura path nuevoNombre s).2 := by
  have hbarra : path.1 ≠ [barra] := by simp [hvacio]
  obtain ⟨_, nombre, _, _, hnombre, _⟩ := leerPath_noPathValido hl hr
  have hrun : osadaRenombrarArchivo basura path nuevoNombre s =
      (some 1, s.escribir (.descriptor posicionBarra { strcpyDescriptor (descriptorRaiz basura)
        nombre with parentDirectory := nuevo.posicion })) := by
    rw [osadaRenombrarArchivo, Op.bind_some (leer_raiz (.inr hvacio) s basura),
      leer_bind_some hl]
    unfold confirmarRenombrar
    rw [hr, hnombre]
    exact (congrFun (if_pos hbarra) s).trans (Op.bind_some rfl)
  exact not_aislado_raiz hrun (Crece.refl s)

end Fuera

end TpSo.Osada
