import TpSo.Osada.Corridas

/-!
# Which requests stay within their file

One request of a client on a well-formed disk. `Aislado` is what isolation asks for: every
write is where it belongs, and the other entries keep their descriptors and contents. The
root is named by two paths, `"/"` and `""`; its position and its descriptor stand for no slot
and no chain, and most requests on it write where they should not.
-/

namespace TpSo.Osada

open Function (update)

/-- The requests that change the disk, as the server takes them off the socket: offsets and
sizes of files are unsigned there. -/
inductive Pedido where
  | crearArchivo (path : Cadena)
  | crearDirectorio (path : Cadena)
  | escribirArchivo (path : Cadena) (offset : ℕ) (datosAEscribir : List UInt8)
  | truncarArchivo (path : Cadena) (offset : ℕ)
  | renombrarArchivo (viejoNombre nuevoNombre : Cadena)
  | eliminarArchivo (path : Cadena)
  | utimens (path : Cadena) (segundos : ℤ)

namespace Pedido

/-- The handlers. The conversions to `int` are those of the calls; a `recv` of no bytes is
taken for a closed connection. -/
def atender (hora : ℕ) (basura : OsadaFile) : Pedido → Op Pokedex ℤ
  | crearArchivo path => osadaCrearArchivo hora basura path
  | crearDirectorio path => osadaCrearDirectorio hora basura path
  | escribirArchivo path offset datosAEscribir =>
    if datosAEscribir = [] then pure 0
    else osadaEditarArchivo basura path (i32 offset) (i32 datosAEscribir.length) datosAEscribir
  | truncarArchivo path offset => osadaTruncarArchivo basura path (i32 offset)
  | renombrarArchivo viejoNombre nuevoNombre =>
    osadaRenombrarArchivo basura viejoNombre nuevoNombre
  | eliminarArchivo path => osadaEliminarArchivo basura path 0
  | utimens path segundos => osadaUtimens basura path segundos

def ruta : Pedido → Cadena
  | crearArchivo path | crearDirectorio path | escribirArchivo path _ _ | truncarArchivo path _
  | eliminarArchivo path | utimens path _ => path
  | renombrarArchivo viejoNombre _ => viejoNombre

end Pedido

def Nombra (d : Disco) (path : Cadena) (p : ℕ) : Prop :=
  p < 2048 ∧ ∃ l, leerPath d .borrado path = some l ∧ l.resultado = .archivoExiste ∧
    l.posicion = p

/-- `b` is in the chain of the descriptor at slot `p`. -/
def BloqueDe (d : Disco) (p b : ℕ) : Prop :=
  ∃ xs, Chain d.asignaciones uint32Max (d.archivos p).firstBlock xs ∧ b ∈ xs

/-- From `s` to `s'` only the entries in `N` were touched: the data blocks written are theirs,
before the run or after it. -/
structure Aislado (N : ℕ → Prop) (s s' : Pokedex) : Prop where
  escrituras : ∃ ws, s'.escrituras = s.escrituras ++ ws ∧
    ∀ w ∈ ws, EnSuLugar s.disco.header
      (fun b => ∃ p, N p ∧ (BloqueDe s.disco p b ∨ BloqueDe s'.disco p b)) w
  header : s'.disco.header = s.disco.header
  descriptores : ∀ i < 2048, (s.disco.archivos i).state ≠ .deleted → ¬ N i →
    s'.disco.archivos i = s.disco.archivos i
  contenidos : ∀ i < 2048, (s.disco.archivos i).state ≠ .deleted → ¬ N i →
    ∀ xs, Chain s.disco.asignaciones uint32Max (s.disco.archivos i).firstBlock xs →
      Chain s'.disco.asignaciones uint32Max (s.disco.archivos i).firstBlock xs ∧
      ∀ b ∈ xs, ∀ k, (s.disco.inicio + b) * 64 ≤ k → k < (s.disco.inicio + b) * 64 + 64 →
        s'.disco.datos k = s.disco.datos k

theorem Mapeado.inicio_eq {d : Disco} (h : Mapeado d) :
    d.inicio = d.header.inicioTablaAsignaciones + obtenerTamanioAsignaciones d.header := by
  have hcabe := d.regiones.cabe
  have htabla := d.regiones.tabla
  have hch := h.chico
  have hlibre : (u32 ((d.header.fsBlocks : ℤ) - d.header.bitmapBlocks - 1 - 1024) : ℤ) =
      d.header.fsBlocks - d.header.bitmapBlocks - 1 - 1024 := u32_of_lt (by omega) (by omega)
  have htam : obtenerTamanioAsignaciones d.header < 134217728 := by
    unfold obtenerTamanioAsignaciones
    generalize u32 ((d.header.fsBlocks : ℤ) - d.header.bitmapBlocks - 1 - 1024) = u at hlibre
    simp only
    split <;> omega
  unfold Disco.inicio obtenerInicioTablaBloques
  generalize obtenerTamanioAsignaciones d.header = t at htam
  rw [← Nat.cast_add]
  exact u32_natCast_of_lt (by omega)

/-- A write in its place is past the header and before the end of the disk. -/
theorem EnSuLugar.bytes {d : Disco} (h : Mapeado d) {P : ℕ → Prop}
    (hP : ∀ b, P b → b < d.header.dataBlocks) {w : Escritura} (hw : EnSuLugar d.header P w)
    {k : ℕ} (hk : k < w.largo) :
    64 ≤ w.desde d.header + k ∧ w.desde d.header + k < d.header.fsBlocks * 64 := by
  have htabla := d.regiones.tabla
  have hceldas := d.regiones.celdas
  have hcabe := d.regiones.cabe
  have hsum := h.suma
  have hini := h.inicio_eq
  cases w with
  | bitmap numeroByte valor =>
    simp only [EnSuLugar, Escritura.largo, Escritura.desde] at hw hk ⊢
    omega
  | asignacion posicion valor =>
    simp only [EnSuLugar, Escritura.largo, Escritura.desde] at hw hk ⊢
    omega
  | descriptor posicion e =>
    simp only [EnSuLugar, Escritura.largo, Escritura.desde] at hw hk ⊢
    omega
  | datos desde bytes =>
    obtain ⟨b, hb, hlo, hhi⟩ := hw k hk
    have hlt := hP b hb
    simp only [Escritura.desde]
    unfold Disco.inicio at hsum hini
    constructor <;> omega

/-! ## The condition -/

/-- A write that is not turned down has the blocks it needs, and one from a negative position
on starts within the blocks of the file. -/
def EntraEscritura (d : Disco) (e : OsadaFile) (n pos : ℤ) (datos : List UInt8) : Prop :=
  ∃ xs, Chain d.asignaciones uint32Max e.firstBlock xs ∧
    max 1 (rondas n pos) ≤ xs.length + libres d ∧
    (0 < n → pos < 0 → ∀ b post,
      xs ++ (libresEnOrden d).take (max 1 (rondas n pos) - xs.length) = b :: post →
      EnSuLugar d.header (· ∈ xs ++ (libresEnOrden d).take (max 1 (rondas n pos) - xs.length))
        (Edicion.escritura ⟨b, n, pos, 0, datos, d.asignaciones⟩ d))

def EntraTruncado (d : Disco) (e : OsadaFile) (offset : ℕ) : Prop :=
  ∃ xs, Chain d.asignaciones uint32Max e.firstBlock xs ∧
    bloquesDeTruncado (i32 offset) ≤ xs.length + libres d ∧
    (u32 offset ≤ e.fileSize ∨ u32 offset < 2147483648)

/-- `P` holds of what is found at the path, if it is anything but the root: a write or a truncation of
the root dies when it asks for its lock. -/
def SiExiste (d : Disco) (path : Cadena) (P : OsadaFile → Prop) : Prop :=
  ∀ l e, leerPath d .borrado path = some l → l.resultado = .archivoExiste →
    l.descriptor = some e → ¬ EsRaiz path → P e

/-- The requests that stay within their file. -/
def Pedido.Entra (d : Disco) : Pedido → Prop
  | crearArchivo _ | crearDirectorio _ => True
  | escribirArchivo path offset datos => datos ≠ [] → SiExiste d path fun e =>
    u32 (e.fileSize - i32 offset + libres d * 64) < u32 (i32 datos.length) ∨
      EntraEscritura d e (i32 datos.length) (i32 offset) datos
  | truncarArchivo path offset => SiExiste d path fun e =>
    u32 (e.fileSize + libres d * 64) < u32 offset ∨ EntraTruncado d e offset
  | renombrarArchivo viejoNombre nuevoNombre => viejoNombre.1 = [] →
    ∀ l, leerPath d .borrado nuevoNombre = some l → l.resultado ≠ .archivoNoPathValido
  | eliminarArchivo path => path.1 = [] → tieneHijos d.archivos posicionBarra = true
  | utimens path _ => path.1 ≠ []

/-! ## Requests that stay within their file -/

section Entra
variable {s s' : Pokedex} {cad : ℕ → List ℕ} {p : ℕ} {N : ℕ → Prop} {basura : OsadaFile}
  {path : Cadena} {l : Lectura}

theorem Aislado.refl (N : ℕ → Prop) (s : Pokedex) : Aislado N s s where
  escrituras := ⟨[], by simp⟩
  header := rfl
  descriptores _ _ _ _ := rfl
  contenidos _ _ _ _ _ hx := ⟨hx, fun _ _ _ _ _ => rfl⟩

theorem Descriptores.chain_iff (hdes : Descriptores s.disco cad)
    (h : Ocupacion s.disco s.disco.raiz cad) (hp : p < 2048)
    (hvivo : (s.disco.archivos p).state ≠ .deleted) {xs : List ℕ} :
    Chain s.disco.asignaciones uint32Max (s.disco.archivos p).firstBlock xs ↔ xs = cad p := by
  have hraiz : s.disco.raiz p = (s.disco.archivos p).firstBlock := by
    unfold Disco.raiz
    split
    · rfl
    · next hno =>
      cases hs : (s.disco.archivos p).state with
      | deleted => exact absurd hs hvivo
      | regular => exact absurd ⟨hp, hs⟩ hno
      | directory => exact (hdes.directorios p hp hs).symm
  have hc := h.fat.chain p
  rw [hraiz] at hc
  constructor
  · exact fun hx => hx.unique hc
  · rintro rfl
    exact hc

/-- An operation on slot `p`, live and named or free, that worked in its blocks and in free
ones, with its writes in their place. -/
theorem Edito.aislado_of_escrituras {e : OsadaFile} {r : ℕ} {xs propio : List ℕ}
    (h : Edito s s.disco.raiz cad p e r xs propio s')
    (hocu : Ocupacion s.disco s.disco.raiz cad) (hdes : Descriptores s.disco cad) (hp : p < 2048)
    (hN : ∀ i < 2048, (s.disco.archivos i).state ≠ .deleted → ¬ N i → i ≠ p)
    (hajeno : ∀ b ∈ propio, ∀ i, i ≠ p → b ∉ cad i)
    (hlugar : ∃ ws, s'.escrituras = s.escrituras ++ ws ∧ ∀ w ∈ ws, EnSuLugar s.disco.header
      (fun b => ∃ q, N q ∧ (BloqueDe s.disco q b ∨ BloqueDe s'.disco q b)) w) :
    Aislado N s s' := by
  have harch := h.archivos hp
  have hocu' := h.ocupacion
  have hheader := h.header
  obtain ⟨s₁, rfl, hcont, _⟩ := h
  refine ⟨hlugar, hheader, ?_, ?_⟩
  · intro i hi hvivo hni
    rw [harch, Function.update_of_ne (hN i hi hvivo hni)]
  · intro i hi hvivo hni ys hys
    have hne := hN i hi hvivo hni
    obtain rfl := (hdes.chain_iff hocu hi hvivo).mp hys
    refine ⟨?_, fun b hb k hlo hhi => ?_⟩
    · have hc := hocu'.fat.chain i
      rw [Function.update_of_ne hne, Function.update_of_ne hne] at hc
      rwa [← (hocu.fat.chain i).start_unique hys]
    · refine hcont.datos k fun c hc hblock => ?_
      have hcb : c ≠ b := fun he => hajeno c hc i hne (he ▸ hb)
      omega

theorem Edito.enSuLugar {e : OsadaFile} {r : ℕ} {xs propio : List ℕ} {raiz : ℕ → ℕ}
    (h : Edito s raiz cad p e r xs propio s') (hp : p < 2048) :
    ∃ ws, s'.escrituras = s.escrituras ++ ws ∧
      ∀ w ∈ ws, EnSuLugar s.disco.header (· ∈ propio) w := by
  obtain ⟨s₁, rfl, hcont, _⟩ := h
  obtain ⟨ws, hws, hlugar⟩ := hcont.escrituras
  refine ⟨ws ++ [.descriptor p e], by simp [hws], fun w hw => ?_⟩
  rcases List.mem_append.mp hw with hw | hw
  · exact hlugar w hw
  · rw [List.mem_singleton] at hw
    subst hw
    exact hp

theorem Edito.aislado {e : OsadaFile} {r : ℕ} {xs propio : List ℕ}
    (h : Edito s s.disco.raiz cad p e r xs propio s')
    (hocu : Ocupacion s.disco s.disco.raiz cad) (hdes : Descriptores s.disco cad) (hp : p < 2048)
    (hN : ∀ i < 2048, (s.disco.archivos i).state ≠ .deleted → ¬ N i → i ≠ p)
    (hajeno : ∀ b ∈ propio, ∀ i, i ≠ p → b ∉ cad i)
    (hpropio : ∀ b ∈ propio, ∃ q, N q ∧ (BloqueDe s.disco q b ∨ BloqueDe s'.disco q b)) :
    Aislado N s s' := by
  refine h.aislado_of_escrituras hocu hdes hp hN hajeno ?_
  obtain ⟨ws, hws, hlugar⟩ := h.enSuLugar hp
  exact ⟨ws, hws, fun w hw => (hlugar w hw).mono hpropio⟩

theorem nombra_posicion (hl : leerPath s.disco basura path = some l)
    (hr : l.resultado = .archivoExiste) (hraiz : ¬ EsRaiz path) :
    Nombra s.disco path l.posicion := by
  obtain ⟨hp, _, _⟩ := leerPath_entrada hl hr hraiz
  rw [leerPath_basura hraiz .borrado] at hl
  exact ⟨hp, l, hl, hr, rfl⟩

theorem aislado_leer {f : Lectura → Op Pokedex ℤ}
    (hf : ∀ l, leerPath s.disco basura path = some l → Aislado N s (f l s).2) :
    Aislado N s ((leer basura path >>= f) s).2 := by
  rcases hl : leerPath s.disco basura path with _ | l
  · rw [leer_bind_none hl]
    exact Aislado.refl N s
  · rw [leer_bind_some hl]
    exact hf l hl

theorem aislado_descriptor {e : OsadaFile} (hd : BienFormado s.disco) (hp : p < 2048)
    (hN : ∀ i < 2048, (s.disco.archivos i).state ≠ .deleted → ¬ N i → i ≠ p) :
    Aislado N s (s.escribir (.descriptor p e)) := by
  obtain ⟨cad, hocu, hdes⟩ := hd.ocupacion
  exact (edito_descriptor hocu p e).aislado hocu hdes hp hN (by simp) (by simp)

theorem aislado_crearEntrada {estructura : OsadaFileState} (hd : BienFormado s.disco)
    (hs : SinPendientes s) (hora : ℕ) (largoMaximo : Option ℕ)
    (hlibre : obtenerCantidadDeArchivos s.disco < 2048) (hvivo : estructura ≠ .deleted) :
    Aislado N s (crearEntrada hora basura path largoMaximo estructura s).2 := by
  rcases hl : leerPath s.disco basura path with _ | l
  · rw [crearEntrada, leer_bind_none hl]
    exact Aislado.refl N s
  · rcases crearEntrada_apply hora largoMaximo hs hlibre hvivo hl with
      hrun | ⟨nombre, i, _, _, _, hi, hdel, hrun⟩
    · rw [hrun]
      exact Aislado.refl N s
    · rw [hrun]
      have ha := aislado_descriptor (N := N)
        (e := descriptorNuevo hora basura nombre l.posicion estructura) hd hi
        fun j _ hvivo _ he => hvivo (he ▸ hdel)
      exact ⟨ha.escrituras, ha.header, ha.descriptores, ha.contenidos⟩

theorem aislado_confirmarUtimens {segundos : ℤ} (hd : BienFormado s.disco)
    (hl : leerPath s.disco basura path = some l) (hvacio : path.1 ≠ []) :
    Aislado (Nombra s.disco path) s (confirmarUtimens path l segundos s).2 := by
  rcases confirmarUtimens_cases path l segundos s with hrun | ⟨e, hr, _, hbarra, hrun⟩
  · rw [hrun]
    exact Aislado.refl _ s
  · have hn := nombra_posicion hl hr fun h => h.elim hbarra hvacio
    rw [hrun]
    exact aislado_descriptor hd hn.1 fun i _ _ hi he => hi (he ▸ hn)

theorem aislado_confirmarRenombrar {nuevo : Lectura} {nuevoNombre : Cadena}
    (hd : BienFormado s.disco) (hl : leerPath s.disco basura path = some l)
    (hnuevo : leerPath s.disco basura nuevoNombre = some nuevo)
    (hentra : (Pedido.renombrarArchivo path nuevoNombre).Entra s.disco) :
    Aislado (Nombra s.disco path) s (confirmarRenombrar path nuevoNombre l nuevo s).2 := by
  rcases confirmarRenombrar_cases path nuevoNombre l nuevo s with
    hrun | ⟨e, nombre, hr, _, hr', _, hbarra, hrun⟩
  · rw [hrun]
    exact Aislado.refl _ s
  · have hraiz : ¬ EsRaiz path := by
      rintro (h | h)
      · exact hbarra h
      · -- the new name is not the root, so it reads the same with any memory
        have hno : ¬ EsRaiz nuevoNombre := fun hraiz => by
          rw [leerPath_raiz hraiz, Option.some.injEq] at hnuevo
          rw [← hnuevo] at hr'
          simp [lecturaRaiz] at hr'
        rw [leerPath_basura hno .borrado] at hnuevo
        exact hentra h nuevo hnuevo hr'
    have hn := nombra_posicion hl hr hraiz
    rw [hrun]
    exact aislado_descriptor hd hn.1 fun i _ _ hi he => hi (he ▸ hn)

theorem aislado_confirmarEliminar (hd : BienFormado s.disco)
    (hl : leerPath s.disco basura path = some l)
    (hentra : (Pedido.eliminarArchivo path).Entra s.disco) :
    Aislado (Nombra s.disco path) s (confirmarEliminar s.disco.archivos path l 0 s).2 := by
  rcases confirmarEliminar_cases s.disco.archivos path l 0 s with
    hrun | ⟨e, hr, hdes, hbarra, hrun⟩
  · rw [hrun]
    exact Aislado.refl _ s
  · rw [hrun]
    by_cases hhijos : (0 : ℕ) = 0 ∧ tieneHijos s.disco.archivos l.posicion = true
    · rw [eliminarArchivoInterna_hijos hhijos]
      exact Aislado.refl _ s
    · have hraiz : ¬ EsRaiz path := by
        rintro (h | h)
        · exact hbarra h
        · rw [leerPath_raiz (.inr h), Option.some.injEq] at hl
          rw [← hl] at hhijos
          exact hhijos ⟨rfl, hentra h⟩
      have hn := nombra_posicion hl hr hraiz
      obtain ⟨hp, hdes', _⟩ := leerPath_entrada hl hr hraiz
      rw [hdes, Option.some.injEq] at hdes'
      subst hdes'
      obtain ⟨cad, hocu, hdes'⟩ := hd.ocupacion
      have hraiz : s.disco.raiz l.posicion = (s.disco.archivos l.posicion).raiz := by
        simp [Disco.raiz, OsadaFile.raiz, hp]
      obtain ⟨r, s', hrun', _, hedito⟩ := returns_eliminarArchivoInterna hocu hraiz hhijos
      rw [hrun']
      exact hedito.aislado hocu hdes' hp (fun i _ _ hi he => hi (he ▸ hn)) (by simp) (by simp)

/-- The blocks of a descriptor written at the end, once the operation is over. -/
theorem Edito.bloqueDe {e : OsadaFile} {xs propio : List ℕ} {raiz : ℕ → ℕ}
    (h : Edito s raiz cad p e e.firstBlock xs propio s') (hp : p < 2048) {b : ℕ} :
    BloqueDe s'.disco p b ↔ b ∈ xs := by
  have hc := h.ocupacion.fat.chain p
  rw [Function.update_self, Function.update_self] at hc
  rw [BloqueDe, h.archivos hp, Function.update_self]
  constructor
  · rintro ⟨ys, hy, hb⟩
    rwa [hc.unique hy]
  · exact fun hb => ⟨xs, hc, hb⟩

theorem Ocupacion.nuevos_ajenos {raiz : ℕ → ℕ} (h : Ocupacion s.disco raiz cad) {k : ℕ} :
    ∀ b ∈ cad p ++ (libresEnOrden s.disco).take k, ∀ i, i ≠ p → b ∉ cad i := by
  intro b hb i hi
  rcases List.mem_append.mp hb with hb | hb
  · exact h.fat.disjoint p i (Ne.symm hi) b hb
  · exact h.free_of_mem (mem_libresEnOrden.mp (List.mem_of_mem_take hb)) i

theorem aislado_confirmarEditar {n pos : ℤ} {datos : List UInt8} (hd : BienFormado s.disco)
    (hl : leerPath s.disco basura path = some l) (hr : l.resultado = .archivoExiste)
    (hraiz : ¬ EsRaiz path) (hentra : EntraEscritura s.disco (s.disco.archivos l.posicion) n pos datos)
    (hcheck : u32 n ≤ u32 ((s.disco.archivos l.posicion).fileSize - pos + libres s.disco * 64)) :
    Aislado (Nombra s.disco path) s (confirmarEditar l pos n datos s).2 := by
  have hn := nombra_posicion hl hr hraiz
  obtain ⟨hp, hdes, hvivo⟩ := leerPath_entrada hl hr hraiz
  obtain ⟨cad, hocu, hdesc⟩ := hd.ocupacion
  obtain ⟨xs, hx, hneed, hprimera⟩ := hentra
  obtain rfl := (hdesc.chain_iff hocu hp hvivo).mp hx
  have hfirst := hx.start_unique (hocu.fat.chain l.posicion)
  rw [← hocu.obtenerBloquesLibres_eq] at hcheck
  have hw : 0 < n → pos < 64 → ∀ b post, cad l.posicion ++ (libresEnOrden s.disco).take
      (max 1 (rondas n pos) - (cad l.posicion).length) = b :: post →
      EnSuLugar s.disco.header (· ∈ cad l.posicion ++ (libresEnOrden s.disco).take
        (max 1 (rondas n pos) - (cad l.posicion).length))
        (Edicion.escritura ⟨b, n, pos, 0, datos, s.disco.asignaciones⟩ s.disco) := by
    intro hn0 hlt b post hbp
    rcases lt_or_ge pos 0 with hneg | hpos
    · exact hprimera hn0 hneg b post hbp
    · exact enSuLugar_primera hocu hpos datos rfl hlt b post hbp
  obtain ⟨r, s', hrun, _, e, _, hedito, _⟩ :=
    returns_confirmarEditar hr hdes hp hocu hfirst.symm hcheck hneed rfl hw
  rw [hrun]
  refine hedito.aislado hocu hdesc hp (fun i _ _ hi he => hi (he ▸ hn)) hocu.nuevos_ajenos ?_
  exact fun b hb => ⟨l.posicion, hn, .inr ((hedito.bloqueDe hp).mpr hb)⟩

theorem aislado_confirmarTruncar {n inicio : ℤ} (hd : BienFormado s.disco)
    (hl : leerPath s.disco basura path = some l) (hr : l.resultado = .archivoExiste)
    (hraiz : ¬ EsRaiz path) {xs : List ℕ}
    (hx : Chain s.disco.asignaciones uint32Max (s.disco.archivos l.posicion).firstBlock xs)
    (hcheck : u32 n ≤ u32 ((s.disco.archivos l.posicion).fileSize + libres s.disco * 64))
    (hi : i32 (u32 n) = inicio) (hneed : bloquesDeTruncado inicio ≤ xs.length + libres s.disco)
    (hn : u32 n ≤ (s.disco.archivos l.posicion).fileSize ∨ 0 ≤ n ∧ n < 2147483648) :
    Aislado (Nombra s.disco path) s (confirmarTruncar l n s).2 := by
  have hnombra := nombra_posicion hl hr hraiz
  obtain ⟨hp, hdes, hvivo⟩ := leerPath_entrada hl hr hraiz
  obtain ⟨cad, hocu, hdesc⟩ := hd.ocupacion
  obtain rfl := (hdesc.chain_iff hocu hp hvivo).mp hx
  have hfirst := hx.start_unique (hocu.fat.chain l.posicion)
  rw [← hocu.obtenerBloquesLibres_eq] at hcheck
  obtain ⟨r, s', hrun, _, e, _, hedito, hsin, _⟩ := returns_confirmarTruncar hr hdes hp hocu
    hfirst.symm hcheck hi hn hneed (q := 2048) (hocu.cad_eq_nil (by omega)) (by omega) rfl
  rw [hrun]
  refine hedito.aislado_of_escrituras hocu hdesc hp (fun i _ _ hi he => hi (he ▸ hnombra))
    hocu.nuevos_ajenos ?_
  rcases hn with hle | ⟨h0, hmax⟩
  · exact (hsin hle).enSuLugar (hedito.enSuLugar hp)
  · obtain ⟨ws, hws, hlugar⟩ := hedito.enSuLugar hp
    refine ⟨ws, hws, fun w hw => (hlugar w hw).mono fun b hb => ⟨l.posicion, hnombra, ?_⟩⟩
    rw [hedito.bloqueDe hp, BloqueDe]
    rcases List.mem_append.mp hb with hb | hb
    · exact .inl ⟨_, hx, hb⟩
    · -- a block is taken only for a size that keeps it
      have hinicio : inicio = n := by
        rw [← hi, u32_of_lt h0 (hmax.trans (by decide)), i32_of_range (by omega) hmax]
      refine .inr ?_
      rw [List.take_append, List.mem_append]
      refine .inr (List.take_subset_take_left _ (Nat.sub_le_sub_right ?_ _) hb)
      unfold bloquesDeTruncado bloquesPara
      split <;> omega

theorem SiExiste.of_leer {d : Disco} {P : OsadaFile → Prop} (h : SiExiste d path P)
    (hl : leerPath d basura path = some l) (hr : l.resultado = .archivoExiste)
    (hraiz : ¬ EsRaiz path) : P (d.archivos l.posicion) := by
  obtain ⟨_, hdes, _⟩ := leerPath_entrada hl hr hraiz
  rw [leerPath_basura hraiz .borrado] at hl
  exact h l _ hl hr hdes hraiz

/-- The root is found at no position of the table. -/
theorem leerPath_raiz_fuera (hraiz : EsRaiz path) (hl : leerPath s.disco basura path = some l) :
    l.resultado = .archivoExiste ∧ l.descriptor = some (descriptorRaiz basura) ∧
      2048 ≤ l.posicion := by
  rw [leerPath_raiz hraiz, Option.some.injEq] at hl
  subst hl
  exact ⟨rfl, rfl, show 2048 ≤ posicionBarra by decide⟩

theorem aislado_quieto {x : Op Pokedex ℤ} {r : Option ℤ} (h : x s = (r, s)) :
    Aislado N s (x s).2 := by
  rw [h]
  exact Aislado.refl N s

/-- What a request that stays within its file does to the disk, with any clock and memory. -/
theorem aislado_atender (hd : BienFormado s.disco) (hs : SinPendientes s) (hora : ℕ)
    (basura : OsadaFile) (pedido : Pedido) (hentra : pedido.Entra s.disco) :
    Aislado (Nombra s.disco pedido.ruta) s (pedido.atender hora basura s).2 := by
  cases pedido with
  | crearArchivo path =>
    rw [Pedido.atender, osadaCrearArchivo, Op.bind_some (Op.get_apply _ _)]
    split
    · exact Aislado.refl _ s
    · next hlibre =>
      exact aislado_crearEntrada hd hs _ _ (Nat.lt_of_not_le hlibre) (by simp)
  | crearDirectorio path =>
    rw [Pedido.atender, osadaCrearDirectorio, Op.bind_some (Op.get_apply _ _)]
    split
    · exact Aislado.refl _ s
    · next hlibre =>
      have hcrear : Aislado (Nombra s.disco path) s
          (crearEntrada hora basura path none .directory s).2 :=
        aislado_crearEntrada hd hs hora none (Nat.lt_of_not_le hlibre) (by simp)
      rcases he : crearEntrada hora basura path none .directory s with ⟨_ | r, s'⟩
      · rw [he] at hcrear
        rw [Op.bind_none he]
        exact hcrear
      · rw [he] at hcrear
        rw [Op.bind_some he]
        split <;> exact hcrear
  | escribirArchivo path offset datos =>
    rw [Pedido.atender]
    split
    · exact Aislado.refl _ s
    · next hdatos =>
      refine aislado_leer fun l hl => ?_
      by_cases hraiz : EsRaiz path
      · obtain ⟨hr, hdes, hp⟩ := leerPath_raiz_fuera hraiz hl
        exact aislado_quieto (confirmarEditar_fuera hr hdes hp)
      by_cases hr : l.resultado = .archivoExiste
      · have hcabe := (hentra hdatos).of_leer hl hr hraiz
        obtain ⟨hp, hdes, _⟩ := leerPath_entrada hl hr hraiz
        generalize (i32 datos.length) = n at hcabe ⊢
        generalize (i32 offset) = pos at hcabe ⊢
        have hlibres := hd.ocupacion.choose_spec.1.obtenerBloquesLibres_eq
        rcases Nat.lt_or_ge (u32 ((s.disco.archivos l.posicion).fileSize - pos +
          libres s.disco * 64)) (u32 n) with hcheck | hcheck
        · rw [← hlibres] at hcheck
          rw [confirmarEditar_rechazado hr hdes hp hcheck]
          exact Aislado.refl _ s
        · exact aislado_confirmarEditar hd hl hr hraiz
            (hcabe.resolve_left (Nat.not_lt.mpr hcheck)) hcheck
      · rw [confirmarEditar_otro hr]
        exact Aislado.refl _ s
  | truncarArchivo path offset =>
    refine aislado_leer fun l hl => ?_
    by_cases hraiz : EsRaiz path
    · obtain ⟨hr, hdes, hp⟩ := leerPath_raiz_fuera hraiz hl
      exact aislado_quieto (confirmarTruncar_fuera hr hdes hp)
    by_cases hr : l.resultado = .archivoExiste
    · have hcabe := SiExiste.of_leer hentra hl hr hraiz
      obtain ⟨hp, hdes, _⟩ := leerPath_entrada hl hr hraiz
      have hu : u32 (i32 offset) = u32 offset := u32_i32 offset
      have hlibres := hd.ocupacion.choose_spec.1.obtenerBloquesLibres_eq
      rcases Nat.lt_or_ge (u32 ((s.disco.archivos l.posicion).fileSize +
        libres s.disco * 64)) (u32 offset) with hcheck | hcheck
      · rw [← hlibres, ← hu] at hcheck
        rw [confirmarTruncar_rechazado hr hdes hp hcheck]
        exact Aislado.refl _ s
      · obtain ⟨xs, hx, hneed, hsize⟩ := hcabe.resolve_left (Nat.not_lt.mpr hcheck)
        have hi : i32 (u32 (i32 offset)) = i32 offset := by rw [hu, i32_u32]
        refine aislado_confirmarTruncar hd hl hr hraiz hx (by rw [hu]; exact hcheck) hi hneed ?_
        rw [hu]
        refine hsize.imp_right fun hlt => ?_
        rw [← i32_u32, i32_natCast_of_lt hlt]
        omega
    · rw [confirmarTruncar_otro hr]
      exact Aislado.refl _ s
  | renombrarArchivo viejoNombre nuevoNombre =>
    exact aislado_leer fun viejo hl => aislado_leer fun nuevo hnuevo =>
      aislado_confirmarRenombrar hd hl hnuevo hentra
  | eliminarArchivo path =>
    rw [Pedido.atender, osadaEliminarArchivo, Op.bind_some (Op.get_apply _ _)]
    exact aislado_leer fun l hl => aislado_confirmarEliminar hd hl hentra
  | utimens path segundos =>
    exact aislado_leer fun l hl => aislado_confirmarUtimens hd hl hentra

end Entra

end TpSo.Osada
