import TpSo.Osada.Funciones

/-!
# What an operation does to the disk

The operations on an existing entry that go through end with the write of its descriptor.
What they did before it is in the blocks of the entry and in the bitmap (`Edito`).
-/

namespace TpSo.Osada

open Function (update)

/-- Entry `p` now has the descriptor `e` and the blocks `xs`, from `r` on; on the way nothing
was touched but cells and blocks of `propio`, and bits. -/
def Edito (s : Pokedex) (raiz : ℕ → ℕ) (cad : ℕ → List ℕ) (p : ℕ) (e : OsadaFile) (r : ℕ)
    (xs propio : List ℕ) (s' : Pokedex) : Prop :=
  ∃ s₁, s' = s₁.escribir (.descriptor p e) ∧ Contenido (· ∈ propio) s s₁ ∧
    Ocupacion s₁.disco (update raiz p r) (update cad p xs)

namespace Edito

variable {s s' : Pokedex} {raiz : ℕ → ℕ} {cad : ℕ → List ℕ} {p r : ℕ} {e : OsadaFile}
  {xs propio : List ℕ}

theorem ocupacion (h : Edito s raiz cad p e r xs propio s') :
    Ocupacion s'.disco (update raiz p r) (update cad p xs) := by
  obtain ⟨s₁, rfl, _, hocu⟩ := h
  exact hocu.congr rfl rfl rfl

theorem header (h : Edito s raiz cad p e r xs propio s') : s'.disco.header = s.disco.header := by
  obtain ⟨s₁, rfl, hcont, _⟩ := h
  rw [Pokedex.escribir_disco, aplicar_header, hcont.header]

theorem archivos (h : Edito s raiz cad p e r xs propio s') (hp : p < 2048) :
    s'.disco.archivos = update s.disco.archivos p e := by
  obtain ⟨s₁, rfl, hcont, _⟩ := h
  rw [Pokedex.escribir_disco, aplicar_descriptor_archivos _ hp, hcont.archivos]

theorem sinPendientes (h : Edito s raiz cad p e r xs propio s') (hs : SinPendientes s) :
    SinPendientes s' := by
  obtain ⟨s₁, rfl, hcont, _⟩ := h
  rw [SinPendientes, Pokedex.escribir_otorgadas, Pokedex.escribir_mutex, hcont.otorgadas,
    hcont.mutex]
  exact hs

end Edito

/-- The first block that `Disco.raiz` reads off a descriptor. -/
def OsadaFile.raiz (e : OsadaFile) : ℕ :=
  if e.state = .regular then e.firstBlock else uint32Max

theorem raiz_update {d d' : Disco} {p : ℕ} {e : OsadaFile} (hp : p < 2048)
    (ha : d'.archivos = update d.archivos p e) : d'.raiz = update d.raiz p e.raiz := by
  funext i
  unfold Disco.raiz
  rw [ha]
  rcases eq_or_ne i p with rfl | hne
  · simp [hp, OsadaFile.raiz]
  · rw [Function.update_of_ne hne, Function.update_of_ne hne]

theorem Descriptores.update {d d' : Disco} {cad : ℕ → List ℕ} {p : ℕ} {e : OsadaFile}
    {xs : List ℕ} (h : Descriptores d cad) (ha : d'.archivos = update d.archivos p e)
    (hreg : e.state = .regular → bloquesPara e.fileSize ≤ xs.length)
    (hdir : e.state = .directory → e.firstBlock = uint32Max) :
    Descriptores d' (update cad p xs) where
  alcanzan i hi := by
    rw [ha]
    rcases eq_or_ne i p with rfl | hne
    · rw [Function.update_self, Function.update_self]
      exact hreg
    · rw [Function.update_of_ne hne, Function.update_of_ne hne]
      exact h.alcanzan i hi
  directorios i hi := by
    rw [ha]
    rcases eq_or_ne i p with rfl | hne
    · rw [Function.update_self]
      exact hdir
    · rw [Function.update_of_ne hne]
      exact h.directorios i hi

theorem Edito.bienFormado {s s' : Pokedex} {cad : ℕ → List ℕ} {p : ℕ} {e : OsadaFile}
    {xs propio : List ℕ} (h : Edito s s.disco.raiz cad p e e.raiz xs propio s') (hp : p < 2048)
    (hd : Descriptores s.disco cad)
    (hreg : e.state = .regular → bloquesPara e.fileSize ≤ xs.length)
    (hdir : e.state = .directory → e.firstBlock = uint32Max) : BienFormado s'.disco := by
  have ha := h.archivos hp
  have hocu := h.ocupacion
  rw [← raiz_update hp ha] at hocu
  exact hocu.bienFormado (hd.update ha hreg hdir)

section Efectos
variable {s : Pokedex} {raiz : ℕ → ℕ} {cad : ℕ → List ℕ} {p : ℕ} {descriptor : OsadaFile}
  {l : Lectura}

theorem Ocupacion.length_add_libres_le (h : Ocupacion s.disco raiz cad) (p : ℕ) :
    (cad p).length + libres s.disco ≤ s.disco.header.dataBlocks := by
  have hdis : Disjoint (cad p).toFinset (bloquesLibres s.disco) := by
    rw [Finset.disjoint_right]
    intro b hb hmem
    exact h.free_of_mem hb p (List.mem_toFinset.mp hmem)
  have hsub : (cad p).toFinset ∪ bloquesLibres s.disco ⊆
      Finset.range s.disco.header.dataBlocks := by
    intro b hb
    rw [Finset.mem_range]
    rcases Finset.mem_union.mp hb with hb | hb
    · exact h.enRango p b (List.mem_toFinset.mp hb)
    · exact (mem_bloquesLibres.mp hb).1
  have hcard := Finset.card_le_card hsub
  rwa [Finset.card_union_of_disjoint hdis, Finset.card_range,
    List.toFinset_card_of_nodup (h.fat.chain p).nodup] at hcard

/-- The blocks a write goes through are few next to the numbers of 32 bits. -/
theorem Ocupacion.rondas_lt (h : Ocupacion s.disco raiz cad) {n pos : ℤ}
    (hmax : n + pos < 4294967296) :
    s.disco.header.fsBlocks + max 1 (rondas n pos) < 2147483648 := by
  have hch := h.chico
  unfold rondas
  split <;> omega

theorem edito_descriptor (h : Ocupacion s.disco raiz cad) (p : ℕ) (e : OsadaFile) :
    Edito s raiz cad p e (raiz p) (cad p) [] (s.escribir (.descriptor p e)) :=
  ⟨s, rfl, Contenido.refl _ s, by rwa [Function.update_eq_self, Function.update_eq_self]⟩

theorem confirmarEditar_otro {n pos : ℤ} {archivo : List UInt8}
    (hr : l.resultado ≠ .archivoExiste) :
    confirmarEditar l pos n archivo s = (some archivoInexistente, s) := by
  unfold confirmarEditar
  cases hresultado : l.resultado with
  | archivoExiste => exact absurd hresultado hr
  | archivoNoPathValido => rfl
  | pathInvalido => rfl

theorem confirmarEditar_entrada (n pos : ℤ) (archivo : List UInt8)
    (hr : l.resultado = .archivoExiste) (hd : l.descriptor = some descriptor)
    (hp : l.posicion < 2048) :
    confirmarEditar l pos n archivo = (do
      let r ← editarArchivoInterna descriptor n pos archivo
      if r.1 = noHayEspacio then pure r.1
      else do
        let _ ← reemplazarEstructuraDeArchivo l.posicion
          { r.2 with fileSize := tamanioEditado r.2.fileSize pos n }
        pure r.1) := by
  unfold confirmarEditar
  rw [hr, hd]
  exact tomarLock_bind hp _

/-- A write or a truncation of the root: there is no lock at its position. -/
theorem confirmarEditar_fuera {n pos : ℤ} {archivo : List UInt8}
    (hr : l.resultado = .archivoExiste) (hd : l.descriptor = some descriptor)
    (hp : 2048 ≤ l.posicion) : confirmarEditar l pos n archivo s = (none, s) := by
  unfold confirmarEditar
  rw [hr, hd]
  exact tomarLock_bind_fuera hp _ s

theorem confirmarEditar_rechazado {n pos : ℤ} {archivo : List UInt8}
    (hr : l.resultado = .archivoExiste) (hd : l.descriptor = some descriptor)
    (hp : l.posicion < 2048)
    (hcheck : u32 (descriptor.fileSize - pos + obtenerBloquesLibres s.disco * 64) < u32 n) :
    confirmarEditar l pos n archivo s = (some noHayEspacio, s) := by
  have hrun : editarArchivoInterna descriptor n pos archivo s =
      (some (noHayEspacio, descriptor), s) := by
    rw [editarArchivoInterna, Op.get_bind, if_pos hcheck, Op.pure_apply]
  rw [confirmarEditar_entrada n pos archivo hr hd hp, Op.bind_some hrun]
  exact congrFun (if_pos rfl) s

theorem returns_confirmarEditar {n pos : ℤ} {archivo : List UInt8}
    (hr : l.resultado = .archivoExiste) (hd : l.descriptor = some descriptor)
    (hp : l.posicion < 2048)
    (h : Ocupacion s.disco raiz cad) (hraiz : raiz l.posicion = descriptor.firstBlock)
    (hcheck : u32 n ≤ u32 (descriptor.fileSize - pos + obtenerBloquesLibres s.disco * 64))
    (hneed : max 1 (rondas n pos) ≤ (cad l.posicion).length + libres s.disco)
    {nuevos : List ℕ} (hnuevos : nuevos =
      (libresEnOrden s.disco).take (max 1 (rondas n pos) - (cad l.posicion).length))
    (hw : 0 < n → pos < 64 → ∀ b post, cad l.posicion ++ nuevos = b :: post →
      EnSuLugar s.disco.header (· ∈ cad l.posicion ++ nuevos)
        (Edicion.escritura ⟨b, n, pos, 0, archivo, s.disco.asignaciones⟩ s.disco)) :
    Op.Returns (confirmarEditar l pos n archivo) s fun r s' => r = max n 0 ∧ ∃ e,
      e = { descriptor with
        firstBlock := e.firstBlock, fileSize := tamanioEditado descriptor.fileSize pos n } ∧
      Edito s raiz cad l.posicion e e.firstBlock (cad l.posicion ++ nuevos)
        (cad l.posicion ++ nuevos) s' ∧
      (0 ≤ pos → (archivo.length : ℤ) = n → contenido s'.disco (cad l.posicion ++ nuevos) =
        overwrite (contenido s.disco (cad l.posicion ++ nuevos)) pos.toNat archivo) := by
  obtain ⟨⟨r, d⟩, s₁, hrun, hcre, hn, hd', hbytes⟩ :=
    returns_editarArchivoInterna h hraiz hcheck hneed hnuevos hw
  simp only at hcre hn hd'
  have hne : r ≠ noHayEspacio := by
    rw [hn]
    unfold noHayEspacio
    omega
  rw [confirmarEditar_entrada n pos archivo hr hd hp]
  refine ⟨r, s₁.escribir (.descriptor l.posicion
      { d with fileSize := tamanioEditado d.fileSize pos n }),
    (Op.bind_some hrun).trans ?_, hn,
    { d with fileSize := tamanioEditado d.fileSize pos n }, ?_,
    ⟨s₁, rfl, hcre.contenido, hcre.ocupacion⟩, hbytes⟩
  · simp only [if_neg hne]
    rfl
  · rw [hd']

/-- A write to a file that has no blocks to spare: rejected, or into the blocks it has. -/
theorem returns_editarArchivoInterna_justo {d : OsadaFile} {n pos : ℤ} {bytes : List UInt8}
    (h : Ocupacion s.disco raiz cad) (hraiz : raiz p = d.firstBlock)
    (hbytes : (bytes.length : ℤ) = n) (hpos : 0 ≤ pos) (hn : 0 < n)
    (hlen : (cad p).length = bloquesPara (n + pos).toNat) :
    Op.Returns (editarArchivoInterna d n pos bytes) s fun r s' =>
      Contenido (· ∈ cad p) s s' ∧ Ocupacion s'.disco raiz cad ∧ r.2 = d ∧
      contenido s'.disco (cad p) =
        if u32 (d.fileSize - pos + obtenerBloquesLibres s.disco * 64) < u32 n then
          contenido s.disco (cad p)
        else overwrite (contenido s.disco (cad p)) pos.toNat bytes := by
  have hrondas : max 1 (rondas n pos) = (cad p).length := by
    rw [rondas_of_pos hn, hlen]
    unfold bloquesPara
    omega
  have hmas : (cad p).length ≠ 0 := by
    rw [← hrondas]
    omega
  have hnuevos : [] = (libresEnOrden s.disco).take (max 1 (rondas n pos) - (cad p).length) := by
    rw [hrondas, Nat.sub_self, List.take_zero]
  rcases Nat.lt_or_ge (u32 (d.fileSize - pos + obtenerBloquesLibres s.disco * 64)) (u32 n)
    with hcheck | hcheck
  · refine ⟨(noHayEspacio, d), s, ?_, Contenido.refl _ s, h, rfl, (if_pos hcheck).symm⟩
    rw [editarArchivoInterna, Op.get_bind, if_pos hcheck, Op.pure_apply]
  · obtain ⟨⟨r, d'⟩, s', hrun, hcre, _, hd', hescrito⟩ := returns_editarArchivoInterna h hraiz
      hcheck (by omega) hnuevos fun _ => enSuLugar_primera h hpos bytes hnuevos
    simp only at hcre hd'
    -- the chain is not empty, so its first block is the one it had
    have hocu := hcre.ocupacion
    rw [List.append_nil, Function.update_eq_self] at hocu
    have hc := hocu.fat.chain p
    rw [Function.update_self] at hc
    have hfb : d'.firstBlock = raiz p := by
      obtain ⟨b, post, hbp⟩ := List.exists_cons_of_ne_nil
        (fun he : cad p = [] => hmas (by rw [he, List.length_nil]))
      have hc' := h.fat.chain p
      rw [hbp] at hc hc'
      rw [hc.head_eq, hc'.head_eq]
    have hcont := hcre.contenido
    rw [List.append_nil] at hcont
    rw [hfb, Function.update_eq_self] at hocu
    rw [hfb, hraiz] at hd'
    have hescrito' := hescrito hpos hbytes
    rw [List.append_nil] at hescrito'
    exact ⟨(r, d'), s', hrun, hcont, hocu, hd',
      hescrito'.trans (if_neg (Nat.not_lt.mpr hcheck)).symm⟩

/-- The end of a truncation: the blocks are there, and the descriptor is written. -/
theorem returns_completarTruncado {d : OsadaFile} {n : ℤ} {q : ℕ}
    (h : Ocupacion s.disco raiz cad) (hraiz : raiz p = d.firstBlock)
    (hn : u32 n ≤ d.fileSize ∨ 0 ≤ n ∧ n < 2147483648 ∧ (cad p).length = bloquesPara n.toNat) :
    Op.Returns (completarTruncado q d n) s fun _ s' => ∃ s₁,
      s' = s₁.escribir (.descriptor q { d with fileSize := u32 n }) ∧
      Contenido (· ∈ cad p) s s₁ ∧ Ocupacion s₁.disco raiz cad ∧
      (u32 n ≤ d.fileSize → s₁ = s) ∧
      (d.fileSize < u32 n → contenido s₁.disco (cad p) =
        if d.fileSize + libres s.disco * 64 < u32 n then contenido s.disco (cad p)
        else overwrite (contenido s.disco (cad p)) d.fileSize
          (List.replicate (u32 n - d.fileSize) 0)) := by
  rw [completarTruncado, Op.Returns]
  rcases Nat.lt_or_ge d.fileSize (u32 n) with hlt | hge
  · obtain ⟨h0, hmax, hlen⟩ := hn.resolve_left (Nat.not_le.mpr hlt)
    have hu : (u32 n : ℤ) = n := u32_of_lt h0 (by omega)
    have hlargo : i32 (n - d.fileSize) = n - d.fileSize := i32_of_range (by omega) (by omega)
    have hpos : i32 d.fileSize = d.fileSize := i32_of_range (by omega) (by omega)
    have hceros : ((List.replicate (n - d.fileSize).toNat (0 : UInt8)).length : ℤ) =
        n - d.fileSize := by
      rw [List.length_replicate]
      omega
    obtain ⟨⟨r, d'⟩, s₁, hrun, hcont, hocu, hd, hbytes⟩ := returns_editarArchivoInterna_justo h
      hraiz hceros (Int.natCast_nonneg d.fileSize) (show 0 < n - (d.fileSize : ℤ) by omega)
      (by rw [Int.sub_add_cancel]; exact hlen)
    obtain rfl : d' = d := hd
    have hfill : rellenarConEspacios d' n s = (some (r, d'), s₁) := by
      rw [rellenarConEspacios, hlargo, hpos]
      exact hrun
    rw [if_pos hlt, Op.bind_some hfill]
    refine ⟨_, _, rfl, s₁, rfl, hcont, hocu, fun hle => absurd hlt (Nat.not_lt.mpr hle),
      fun _ => ?_⟩
    -- the sums of the second check stay within 32 bits
    have hsum := h.suma
    have hch := h.chico
    have hlib := libres_le s.disco
    have hespacio : u32 ((d'.fileSize : ℤ) - d'.fileSize + obtenerBloquesLibres s.disco * 64) =
        libres s.disco * 64 := by
      rw [sub_self, zero_add, h.toMapeado.obtenerBloquesLibres_eq, ← Nat.cast_ofNat (R := ℤ),
        ← Nat.cast_mul]
      exact u32_natCast_of_lt (by omega)
    have hpedido : u32 (n - d'.fileSize) = u32 n - d'.fileSize := by
      have hres : ((u32 (n - d'.fileSize) : ℕ) : ℤ) = n - d'.fileSize :=
        u32_of_lt (by omega) (by omega)
      omega
    have hcuantos : (n - (d'.fileSize : ℤ)).toNat = u32 n - d'.fileSize := by omega
    rw [hbytes, hespacio, hpedido, hcuantos, Int.toNat_natCast]
    exact if_congr (by omega) rfl rfl
  · rw [if_neg (Nat.not_lt.mpr hge), Op.pure_bind']
    exact ⟨_, _, rfl, s, rfl, Contenido.refl _ s, h, fun _ => rfl,
      fun hlt => absurd hlt (Nat.not_lt.mpr hge)⟩

theorem bloquesPara_le_bloquesDeTruncado (inicio : ℤ) :
    bloquesPara inicio.toNat ≤ bloquesDeTruncado inicio := by
  unfold bloquesDeTruncado
  split
  · exact le_max_right _ _
  · next hcero => simp [not_not.mp hcero, bloquesPara]

theorem truncarArchivoInterna_apply {s' : Pokedex} {offset : ℕ} {r : ℤ × OsadaFile}
    (hcheck : offset ≤ u32 (descriptor.fileSize + obtenerBloquesLibres s.disco * 64))
    (hrun : truncarHasta descriptor (i32 offset) s = (some r, s')) :
    truncarArchivoInterna descriptor offset s = (some r, s') := by
  rw [truncarArchivoInterna, Op.bind_some (Op.get_apply _ _), if_neg (Nat.not_lt.mpr hcheck)]
  exact hrun

theorem confirmarTruncar_entrada (n : ℤ)
    (hr : l.resultado = .archivoExiste) (hd : l.descriptor = some descriptor)
    (hp : l.posicion < 2048) :
    confirmarTruncar l n = (do
      let r ← truncarArchivoInterna descriptor (u32 n)
      if r.1 = 1 then do
        let _ ← completarTruncado l.posicion r.2 n
        pure r.1
      else pure r.1) := by
  unfold confirmarTruncar
  rw [hr, hd]
  exact tomarLock_bind hp _

theorem confirmarTruncar_fuera {n : ℤ}
    (hr : l.resultado = .archivoExiste) (hd : l.descriptor = some descriptor)
    (hp : 2048 ≤ l.posicion) : confirmarTruncar l n s = (none, s) := by
  unfold confirmarTruncar
  rw [hr, hd]
  exact tomarLock_bind_fuera hp _ s

theorem confirmarTruncar_apply {s' s₁ : Pokedex} {d : OsadaFile} {n a : ℤ}
    (hr : l.resultado = .archivoExiste) (hd : l.descriptor = some descriptor)
    (hp : l.posicion < 2048)
    (hrun : truncarArchivoInterna descriptor (u32 n) s = (some (1, d), s₁))
    (hrun' : completarTruncado l.posicion d n s₁ = (some a, s')) :
    confirmarTruncar l n s = (some 1, s') := by
  rw [confirmarTruncar_entrada n hr hd hp, Op.bind_some hrun]
  exact (congrFun (if_pos rfl) s₁).trans (Op.bind_some hrun')

theorem confirmarTruncar_otro {n : ℤ} (hr : l.resultado ≠ .archivoExiste) :
    confirmarTruncar l n s = (some archivoInexistente, s) := by
  unfold confirmarTruncar
  cases hresultado : l.resultado with
  | archivoExiste => exact absurd hresultado hr
  | archivoNoPathValido => rfl
  | pathInvalido => rfl

theorem confirmarTruncar_rechazado {n : ℤ}
    (hr : l.resultado = .archivoExiste) (hd : l.descriptor = some descriptor)
    (hp : l.posicion < 2048)
    (hcheck : u32 (descriptor.fileSize + obtenerBloquesLibres s.disco * 64) < u32 n) :
    confirmarTruncar l n s = (some noHayEspacio, s) := by
  have hrun : truncarArchivoInterna descriptor (u32 n) s =
      (some (noHayEspacio, descriptor), s) := by
    rw [truncarArchivoInterna, Op.bind_some (Op.get_apply _ _), if_pos hcheck, Op.pure_apply]
  rw [confirmarTruncar_entrada n hr hd hp, Op.bind_some hrun]
  exact congrFun (if_neg (show ¬ noHayEspacio = 1 by decide)) s

/-- The bytes of the blocks after a truncation to `n` that leaves `libres` blocks free: the new
ones are set to zero if the check of the free space lets that write through. -/
def truncado (fileSize n libres : ℕ) (bytes : List UInt8) : List UInt8 :=
  if fileSize < n ∧ n ≤ fileSize + libres * 64 then
    overwrite bytes fileSize (List.replicate (n - fileSize) 0)
  else bytes

theorem returns_confirmarTruncar {n inicio : ℤ}
    (hr : l.resultado = .archivoExiste) (hd : l.descriptor = some descriptor)
    (hp : l.posicion < 2048)
    (h : Ocupacion s.disco raiz cad) (hraiz : raiz l.posicion = descriptor.firstBlock)
    (hcheck : u32 n ≤ u32 (descriptor.fileSize + obtenerBloquesLibres s.disco * 64))
    (hi : i32 (u32 n) = inicio)
    (hn : u32 n ≤ descriptor.fileSize ∨ 0 ≤ n ∧ n < 2147483648)
    (hneed : bloquesDeTruncado inicio ≤ (cad l.posicion).length + libres s.disco)
    {q : ℕ} (hq : cad q = []) (hqp : q ≠ l.posicion) {nuevos : List ℕ}
    (hnuevos : nuevos = (libresEnOrden s.disco).take
      (bloquesDeTruncado inicio - (cad l.posicion).length)) :
    Op.Returns (confirmarTruncar l n) s fun r s' => r = 1 ∧ ∃ e,
      e = { descriptor with firstBlock := e.firstBlock, fileSize := u32 n } ∧
      Edito s raiz cad l.posicion e e.firstBlock
        ((cad l.posicion ++ libresEnOrden s.disco).take (bloquesPara inicio.toNat))
        (cad l.posicion ++ nuevos) s' ∧ (u32 n ≤ descriptor.fileSize → SinDatos s s') ∧
      contenido s'.disco ((cad l.posicion ++ libresEnOrden s.disco).take
          (bloquesPara inicio.toNat)) =
        truncado descriptor.fileSize (u32 n)
          ((cad l.posicion).length + libres s.disco - bloquesPara inicio.toNat)
          (contenido s.disco ((cad l.posicion ++ libresEnOrden s.disco).take
            (bloquesPara inicio.toNat))) := by
  obtain ⟨⟨r, d⟩, s₁, hrun, nuevos', hocu, hlib, hnuevos', hcont, hr1, hd'⟩ :=
    returns_truncarHasta h hraiz hneed hq hqp
  rw [← hnuevos] at hnuevos'
  subst hnuevos'
  simp only at hocu hr1 hd'
  subst hr1
  have hle := bloquesPara_le_bloquesDeTruncado inicio
  have hxs : ((cad l.posicion ++ libresEnOrden s.disco).take (bloquesPara inicio.toNat)).length =
      bloquesPara inicio.toNat := by
    rw [List.length_take, List.length_append, length_libresEnOrden]
    exact min_eq_left (hle.trans hneed)
  have hsize : d.fileSize = descriptor.fileSize := by rw [hd']
  have hinicio : 0 ≤ n → n < 2147483648 → inicio = n := by
    intro h0 hmax
    rw [← hi, u32_of_lt h0 (hmax.trans (by decide)), i32_of_range (by omega) hmax]
  obtain ⟨_, s', hrun', s₂, hs', hcont', hocu', hcorto, hlargo⟩ :=
    returns_completarTruncado (p := l.posicion) (d := d) (n := n) (q := l.posicion) hocu
      (by rw [Function.update_self]) (by
        rw [hsize, Function.update_self, hxs]
        exact hn.imp_right fun ⟨h0, hmax⟩ => ⟨h0, hmax, by rw [hinicio h0 hmax]⟩)
  rw [Function.update_self] at hcont'
  have hpropio : ∀ b ∈ (cad l.posicion ++ libresEnOrden s.disco).take (bloquesPara inicio.toNat),
      b ∈ cad l.posicion ++ nuevos' := by
    intro b hb
    rw [List.take_append] at hb
    rw [List.mem_append, hnuevos]
    rcases List.mem_append.mp hb with hb | hb
    · exact .inl (List.mem_of_mem_take hb)
    · exact .inr ((List.take_subset_take_left _ (Nat.sub_le_sub_right hle _)) hb)
  have hsin : u32 n ≤ descriptor.fileSize → SinDatos s s' := by
    intro hle
    have hs₁ := sinDatos.truncarHasta descriptor inicio s
    rw [hrun] at hs₁
    rw [hs', hcorto (hsize ▸ hle)]
    exact hs₁.trans (SinDatos.escribir (by simp))
  have hdatos := mismosDatos.truncarHasta descriptor inicio s
  rw [hrun] at hdatos
  have hlibres : libres s₁.disco =
      (cad l.posicion).length + libres s.disco - bloquesPara inicio.toNat := by omega
  rw [← hi] at hrun
  refine ⟨1, s', confirmarTruncar_apply hr hd hp (truncarArchivoInterna_apply hcheck hrun) hrun', rfl,
    { d with fileSize := u32 n }, by rw [hd'],
    ⟨s₂, hs', hcont.trans (hcont'.mono hpropio), hocu'⟩, hsin, ?_⟩
  have hs₂ : contenido s'.disco = contenido s₂.disco := by
    rw [hs']
    rfl
  have hs₁ := contenido_of_datos hcont.inicio hdatos
  rw [Function.update_self, hsize, hlibres, hs₁] at hlargo
  unfold truncado
  rw [hs₂]
  rcases Nat.lt_or_ge descriptor.fileSize (u32 n) with hlt | hge
  · rw [hlargo hlt]
    split
    · next hno => rw [if_neg (by omega)]
    · next hsi => rw [if_pos (by omega)]
  · rw [if_neg (by omega), hcorto (hsize ▸ hge), hs₁]

theorem returns_eliminarArchivoInterna {archivos : ℕ → OsadaFile} {hard : ℕ}
    (h : Ocupacion s.disco raiz cad) (hraiz : raiz p = descriptor.raiz)
    (hhijos : ¬ (hard = 0 ∧ tieneHijos archivos p = true)) :
    Op.Returns (eliminarArchivoInterna archivos p descriptor hard) s fun r s' => r = 1 ∧
      Edito s raiz cad p { descriptor with state := .deleted } uint32Max [] [] s' := by
  rw [eliminarArchivoInterna, Op.Returns, if_neg hhijos]
  by_cases hreg : descriptor.state = .regular
  · rw [OsadaFile.raiz, if_pos hreg] at hraiz
    obtain ⟨r, s₁, hrun, hocu, _, hcont⟩ := returns_liberarBloques h p
    rw [hraiz] at hrun
    have hlibera : liberarSiEsArchivo descriptor s = (some r, s₁) := by
      rw [liberarSiEsArchivo, if_pos hreg]
      exact (Op.bind_some (Op.get_apply _ _)).trans hrun
    rw [Op.bind_some hlibera]
    exact ⟨1, _, rfl, rfl, s₁, rfl, hcont.mono fun _ hf => hf.elim, hocu⟩
  · rw [OsadaFile.raiz, if_neg hreg] at hraiz
    have hlibera : liberarSiEsArchivo descriptor s = (some 0, s) := by
      rw [liberarSiEsArchivo, if_neg hreg, Op.pure_apply]
    rw [Op.bind_some hlibera]
    refine ⟨1, _, rfl, rfl, s, rfl, Contenido.refl _ s, ?_⟩
    rwa [← hraiz, ← h.raiz_eq.mpr hraiz, Function.update_eq_self, Function.update_eq_self]

theorem eliminarArchivoInterna_hijos {archivos : ℕ → OsadaFile} {hard : ℕ}
    (hhijos : hard = 0 ∧ tieneHijos archivos p = true) :
    eliminarArchivoInterna archivos p descriptor hard s = (some directorioNoVacio, s) := by
  rw [eliminarArchivoInterna, if_pos hhijos, Op.pure_apply]

theorem confirmarEliminar_cases (archivos : ℕ → OsadaFile) (path : Cadena) (l : Lectura)
    (hard : ℕ) (s : Pokedex) :
    confirmarEliminar archivos path l hard s = (some archivoInexistente, s) ∨
    ∃ e, l.resultado = .archivoExiste ∧ l.descriptor = some e ∧ path.1 ≠ [barra] ∧
      confirmarEliminar archivos path l hard = eliminarArchivoInterna archivos l.posicion e hard := by
  rcases l with ⟨_ | e, _ | _ | _, posicion⟩
  case some.archivoExiste =>
    by_cases hbarra : path.1 = [barra]
    · exact .inl (by simp [confirmarEliminar, hbarra])
    · exact .inr ⟨e, rfl, rfl, hbarra, by simp [confirmarEliminar, hbarra]⟩
  all_goals exact .inl rfl

theorem confirmarUtimens_cases (path : Cadena) (l : Lectura) (segundos : ℤ) (s : Pokedex) :
    confirmarUtimens path l segundos s = (some (-1), s) ∨
    ∃ e, l.resultado = .archivoExiste ∧ l.descriptor = some e ∧ path.1 ≠ [barra] ∧
      confirmarUtimens path l segundos s =
        (some 1, s.escribir (.descriptor l.posicion { e with lastmod := u32 segundos })) := by
  rcases l with ⟨_ | e, _ | _ | _, posicion⟩
  case some.archivoExiste =>
    by_cases hbarra : path.1 = [barra]
    · exact .inl (by simp [confirmarUtimens, hbarra])
    · exact .inr ⟨e, rfl, rfl, hbarra,
        (congrFun (if_pos hbarra) s).trans (Op.bind_some rfl)⟩
  all_goals exact .inl rfl

theorem confirmarRenombrar_cases (viejoNombre nuevoNombre : Cadena) (viejo nuevo : Lectura)
    (s : Pokedex) :
    confirmarRenombrar viejoNombre nuevoNombre viejo nuevo s = (some archivoInexistente, s) ∨
    ∃ e nombre, viejo.resultado = .archivoExiste ∧ viejo.descriptor = some e ∧
      nuevo.resultado = .archivoNoPathValido ∧
      obtenerNombreDeArchivoDePath nuevoNombre = some nombre ∧ viejoNombre.1 ≠ [barra] ∧
      confirmarRenombrar viejoNombre nuevoNombre viejo nuevo s =
        (some 1, s.escribir (.descriptor viejo.posicion
          { strcpyDescriptor e nombre with parentDirectory := nuevo.posicion })) := by
  unfold confirmarRenombrar
  rcases viejo with ⟨_ | e, _ | _ | _, posicion⟩
  case some.archivoExiste =>
    rcases nuevo with ⟨d', _ | _ | _, parent⟩
    case archivoNoPathValido =>
      rcases obtenerNombreDeArchivoDePath nuevoNombre with _ | nombre
      · exact .inl rfl
      · by_cases hbarra : viejoNombre.1 = [barra]
        · exact .inl (congrFun (if_neg (not_not.mpr hbarra)) s)
        · exact .inr ⟨e, nombre, rfl, rfl, rfl, rfl, hbarra,
            (congrFun (if_pos hbarra) s).trans (Op.bind_some rfl)⟩
    all_goals exact .inl rfl
  all_goals exact .inl rfl

/-- A creation on a table with room: nothing is done, or a deleted slot gets the new entry. -/
theorem crearEntrada_apply {basura : OsadaFile} {path : Cadena} {estructura : OsadaFileState}
    (hora : ℕ) (largoMaximo : Option ℕ) (hs : SinPendientes s)
    (hlibre : obtenerCantidadDeArchivos s.disco < 2048) (hvivo : estructura ≠ .deleted)
    (hl : leerPath s.disco basura path = some l) :
    crearEntrada hora basura path largoMaximo estructura s = (some 2, s) ∨
    ∃ nombre i, l.resultado = .archivoNoPathValido ∧
      obtenerNombreDeArchivoDePath path = some nombre ∧
      largoMaximo.all (nombre.length ≤ ·) = true ∧
      i < 2048 ∧ (s.disco.archivos i).state = .deleted ∧
      crearEntrada hora basura path largoMaximo estructura s = (some (i : ℤ),
        s.conEntrada i (descriptorNuevo hora basura nombre l.posicion estructura)) := by
  by_cases hsi : l.resultado = .archivoNoPathValido ∧ ∃ nombre,
      obtenerNombreDeArchivoDePath path = some nombre ∧
        largoMaximo.all (nombre.length ≤ ·) = true
  · obtain ⟨hr, nombre, hn, hlargo⟩ := hsi
    have hest : estructura = .regular ∨ estructura = .directory := by
      cases estructura <;> simp_all
    obtain ⟨i, hi, hdel, hrun⟩ := escribirDescriptor_apply hs (obtenerCantidadDeArchivos_lt hlibre)
      (descriptorNuevo hora basura nombre l.posicion estructura)
    exact .inr ⟨nombre, i, hr, hn, hlargo, hi, hdel,
      (crearEntrada_acepta hest hl hr hn hlargo).trans hrun⟩
  · exact .inl (crearEntrada_rechaza hl hsi)

end Efectos

end TpSo.Osada
