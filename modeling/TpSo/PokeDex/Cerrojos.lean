import TpSo.Osada.Cerrojos
import TpSo.PokeDex.Conversacion

/-!
# The threads of the server

A thread for each client, that attends one request after another. By every path a request leaves the
locks as it found them, but for a creation that finds no entry, takes the mutexes after the lock of an
entry and searches for a free entry with none: whatever the threads do, the locks by themselves never
stop them.
-/

namespace TpSo.PokeDex

open Osada (Cadena OsadaFile OsadaFileState Pokedex Lectura)
open Osada.Cerrado RwSystem

/-! ## Requests -/

/-- What a request does in the server; its answer goes to the client. -/
def programa (m : Momento) : (p : Pedido) → Programa (operacion m p).tipo
  | .abrirArchivo path => osadaExisteArchivo m.basura path
  | .leerArchivo size offset path => osadaLeerArchivo m.basura m.memoria path size offset
  | .escribirArchivo offset path buf => osadaEditarArchivo m.basura path offset (i32 buf.length) buf
  | .truncarArchivo path offset => osadaTruncarArchivo m.basura path offset
  | .borrarArchivo path => osadaEliminarArchivo m.basura path 0
  | .getDir path => osadaEstructuraDirectorio m.basura m.memoria path
  | .getAttr path => osadaGetAtributosArchivo m.basura path
  | .crearDirectorio path => do
    let resultado ← osadaCrearDirectorio m.hora m.basura path
    -- the handler frees the path
    if Osada.liberaElPath path resultado then .stop else pure resultado
  | .crearArchivo path => osadaCrearArchivo m.hora m.basura path
  | .renombrarArchivo desde hasta => osadaRenombrarArchivo m.basura desde hasta
  | .utimens path segundos => osadaUtimens m.basura path segundos

/-- With nobody else in the server a request is its operation, or the end of the server where its
path is freed twice. -/
theorem sola_programa (m : Momento) (p : Pedido)
    (hraiz : ∀ path, p = .crearDirectorio path → path.1 ≠ [Osada.barra]) :
    sola (programa m p) = (operacion m p).op := by
  cases p with
  | abrirArchivo path => exact sola_osadaExisteArchivo m.basura path
  | leerArchivo size offset path =>
    exact sola_osadaLeerArchivo m.basura m.memoria path size offset
  | escribirArchivo offset path buf =>
    exact sola_osadaEditarArchivo m.basura path offset (i32 buf.length) buf
  | truncarArchivo path offset => exact sola_osadaTruncarArchivo m.basura path offset
  | borrarArchivo path => exact sola_osadaEliminarArchivo m.basura path 0
  | getDir path => exact sola_osadaEstructuraDirectorio m.basura m.memoria path
  | getAttr path => exact sola_osadaGetAtributosArchivo m.basura path
  | crearDirectorio path =>
    have hno : ∀ r : ℤ, ¬ Osada.liberaElPath path r := fun r h => hraiz path rfl h.1
    have hsigue : (fun r : ℤ => if Osada.liberaElPath path r then (.stop : Programa ℤ)
        else pure r) = pure := funext fun r => if_neg (hno r)
    have hplano : sola (osadaCrearDirectorio m.hora m.basura path >>= fun r =>
        if Osada.liberaElPath path r then .stop else pure r) =
          Osada.osadaCrearDirectorio m.hora m.basura path := by
      rw [hsigue, sola_bind, sola_osadaCrearDirectorio]
      exact funext fun s => Op.bind_pure _ s
    exact hplano
  | crearArchivo path => exact sola_osadaCrearArchivo m.hora m.basura path
  | renombrarArchivo desde hasta => exact sola_osadaRenombrarArchivo m.basura desde hasta
  | utimens path segundos => exact sola_osadaUtimens m.basura path segundos

/-- Any requests, with any clock and fresh memory. -/
def hilosServidor : RwSystem Cerrojo Orden Orden.Respuesta Pokedex where
  exec o s r s' := o.ejecutar s = (some r, s')
  body := cuerpo
  request x := ∃ m p, x = programa m p >>= fun _ => pure ⟨⟩

/-! ## Every request keeps the order of the locks -/

/-- No search for an entry comes back to the cursor. -/
def SinAgotar : (o : Orden) → o.Respuesta → Prop
  | .probarEntrada _ _, r => r.1 ≠ some (-1)
  | _, _ => True

abbrev Ordenado {α : Type} (x : Programa α) (g : Cerrojo → Option Mode) : Prop :=
  Orderly Cerrojo.rango cuerpo SinAgotar x g

/-- The thread holds no mutex. -/
def SinMutex (g : Cerrojo → Option Mode) : Prop := ∀ k, g k ≠ none → k.rango < 1

section Ordenado
variable {α β : Type} {g : Cerrojo → Option Mode}

theorem sinMutex_none : SinMutex fun _ => none := fun _ h => absurd rfl h

theorem sinMutex_entrada (i : ℕ) (m : Mode) :
    SinMutex (Function.update (fun _ => none) (.entrada i) (some m)) := by
  intro k hk
  by_cases hki : k = .entrada i
  · subst hki
    exact Nat.one_pos
  · rw [Function.update_of_ne hki] at hk
    exact absurd rfl hk

theorem SinMutex.above (hg : SinMutex g) {k : Cerrojo} (hk : k.rango = 1) :
    Above Cerrojo.rango g k := fun k' h => hk ▸ hg k' h

theorem ordenado_conCerrojo (hg : SinMutex g) (o : Osada.Hilado.Orden) :
    Ordenado (conCerrojo o) g := by
  cases o with
  | obtenerBloquesLibres => exact Orderly.guarded (hg.above rfl) (Orderly.other rfl)
  | obtenerPrimerBloqueLibre => exact Orderly.guarded (hg.above rfl) (Orderly.other rfl)
  | asignar posicion valor => exact Orderly.guarded (hg.above rfl) (Orderly.other rfl)
  | _ => exact Orderly.other rfl

theorem ordenado_cerrar (hg : SinMutex g) (x : Osada.Hilado.Programa α) : Ordenado (cerrar x) g := by
  induction x with
  | ret a => exact Orderly.pure a
  | stop => exact Orderly.stop
  | call o k ih => exact (ordenado_conCerrojo hg o).bind ih

/-- The blocks of a file are given back without a lock of their own. -/
theorem ordenado_liberar (asignaciones : ℕ → ℕ) (desde : ℕ) :
    Ordenado (cerrar (Osada.Hilado.liberar asignaciones desde)) g := by
  have hvueltas : ∀ (fuel bloque : ℕ), Ordenado (cerrar (.whileDo (fun b => b ≠ Osada.uint32Max)
      (Osada.Hilado.liberarUno asignaciones) fuel bloque)) g := by
    intro fuel
    induction fuel with
    | zero =>
      intro bloque
      rw [Prog.whileDo]
      split
      · exact Orderly.stop
      · exact Orderly.pure _
    | succ n ih =>
      intro bloque
      rw [Prog.whileDo]
      split
      · exact (Orderly.other (c := Orden.archivo (.editarBloqueEnBitmap bloque false)) rfl).bind
          fun _ => ih _
      · exact Orderly.pure _
  exact hvueltas _ _

theorem ordenado_conEntrada {x : Programa α} (posicion : ℕ)
    (hx : ∀ g, SinMutex g → Ordenado x g) : Ordenado (conEntrada posicion x) fun _ => none := by
  unfold conEntrada
  split
  · exact Orderly.guarded (above_none _) (hx _ (sinMutex_entrada posicion .write))
  · exact Orderly.stop

theorem ordenado_buscarDesde (archivos : ℕ → OsadaFile) (posicionPadre : ℕ) (nombre : List UInt8)
    (is : List ℕ) : Ordenado (buscarDesde archivos posicionPadre nombre is) fun _ => none := by
  induction is with
  | nil => exact Orderly.pure _
  | cons i is ih =>
    refine follows_lock (above_none _) ?_
    split
    · exact follows_unlock rfl (Orderly.pure _)
    · exact follows_unlock rfl ih

theorem ordenado_leerPartes (partes : List (List UInt8)) (directory : Option OsadaFile)
    (posicion : ℕ) : Ordenado (leerPartes directory posicion partes) fun _ => none := by
  induction partes generalizing directory posicion with
  | nil => exact Orderly.pure _
  | cons parte partes ih =>
    have hobtener : Ordenado (obtenerEstructuraDeArchivo posicion parte) fun _ => none := by
      unfold obtenerEstructuraDeArchivo
      generalize List.range 2048 = is
      exact (Orderly.other rfl).bind fun archivos =>
        (ordenado_buscarDesde archivos posicion parte _).bind fun _ => Orderly.pure _
    refine hobtener.bind fun hallado => ?_
    split
    · exact Orderly.pure _
    · exact ih _ _

theorem ordenado_leerPath (basura : OsadaFile) (path : Cadena) :
    Ordenado (leerPath basura path) fun _ => none := by
  unfold leerPath
  split
  · exact Orderly.pure _
  · split
    · exact Orderly.stop
    · exact ordenado_leerPartes _ _ _

/-- A round that does not come back to the cursor leaves the mutex. -/
theorem ordenado_probar (archivos : ℕ → OsadaFile) (i : ℕ) :
    Ordenado (probar archivos i) fun _ => none := by
  refine follows_lock (above_none _) ?_
  refine follows_other rfl fun r hr => ?_
  rw [if_neg hr]
  refine follows_unlock rfl ?_
  split
  · refine (Orderly.other rfl).bind fun ultima => ?_
    split <;> exact Orderly.pure _
  · exact Orderly.pure _

/-- The search holds nothing between a round and the next. -/
theorem ordenado_cuerpo : OrderlyBodies Cerrojo.rango cuerpo SinAgotar := by
  intro o x hx
  cases o with
  | buscarEntrada archivos i =>
    obtain rfl := Option.some.inj hx
    refine Protocol.Follows.mono ((ordenado_probar archivos i).bind fun r => ?_)
      fun r g hg => ⟨trivial, hg⟩
    split
    · exact Orderly.call _
    · exact Orderly.pure _
  | _ => cases hx

theorem ordenado_escribirDescriptor (descriptor : OsadaFile) :
    Ordenado (escribirDescriptor descriptor) fun _ => none := by
  have hlibre : Ordenado obtenerEstructuraDeArchivoLibre fun _ => none :=
    (Orderly.other rfl).bind fun archivos => (Orderly.other rfl).bind fun i =>
      (Orderly.call _).bind fun r => Orderly.pure _
  refine hlibre.bind fun libre => ordenado_conEntrada _ fun g _ => ?_
  exact (Orderly.other rfl).bind fun _ => Orderly.pure _

theorem ordenado_crearEntrada (hora : ℕ) (basura : OsadaFile) (path : Cadena)
    (largoMaximo : Option ℕ) (estructura : OsadaFileState) :
    Ordenado (crearEntrada hora basura path largoMaximo estructura) fun _ => none := by
  refine (ordenado_leerPath _ _).bind fun l => ?_
  split
  · split
    · split
      · exact ordenado_escribirDescriptor _
      · exact Orderly.pure _
    · exact Orderly.pure _
  · exact Orderly.pure _

theorem ordenado_truncar (posicion : ℕ) (descriptor : OsadaFile) (bytesATruncar : ℤ)
    (hg : SinMutex g) : Ordenado (truncar posicion descriptor bytesATruncar) g := by
  have hcortar : ∀ firstBlock t, Ordenado (cortar firstBlock t) g := by
    intro firstBlock t
    have hliberar : ∀ r : ℕ × (ℕ → ℕ), Ordenado (do
        let _ ← mutex .lockBitmap (cerrar (Osada.Hilado.liberar r.2 t.siguienteBloque))
        pure r.1) g := fun r =>
      (Orderly.guarded (hg.above rfl) (ordenado_liberar _ _)).bind fun _ => Orderly.pure _
    unfold cortar
    split
    · exact (ordenado_cerrar hg _).bind fun asignaciones => hliberar (firstBlock, asignaciones)
    · exact hliberar (Osada.uint32Max, t.asignaciones)
  have hhasta : ∀ inicio, Ordenado (hasta descriptor inicio) g := by
    intro inicio
    have htodos : ∀ r : ℕ × (ℕ → ℕ), Ordenado (do
        let t ← cerrar (Osada.Hilado.truncarTodos inicio.toNat
          { bloqueAEditar := r.1, siguienteBloque := r.1, inicio := inicio, asignaciones := r.2 })
        let firstBlock ← cortar r.1 t
        pure ((1 : ℤ), { descriptor with firstBlock := firstBlock })) g := fun r =>
      (ordenado_cerrar hg _).bind fun t => (hcortar _ _).bind fun _ => Orderly.pure _
    refine (ordenado_cerrar hg _).bind fun asignaciones => ?_
    split
    · exact (ordenado_cerrar hg _).bind htodos
    · exact htodos (descriptor.firstBlock, asignaciones)
  have hinterna : ∀ offset, Ordenado (truncarInterna descriptor offset) g := by
    intro offset
    refine (ordenado_cerrar hg _).bind fun libres => ?_
    split
    · exact Orderly.pure _
    · exact hhasta _
  refine (hinterna _).bind fun r => ?_
  split
  · exact (ordenado_cerrar hg _).bind fun _ => Orderly.pure _
  · exact Orderly.pure _

theorem ordenado_eliminarArchivoInterna (archivos : ℕ → OsadaFile) (posicion : ℕ)
    (descriptor : OsadaFile) (hard : ℕ) :
    Ordenado (eliminarArchivoInterna archivos posicion descriptor hard) fun _ => none := by
  have hliberar : Ordenado (liberarSiEsArchivo descriptor) fun _ => none := by
    unfold liberarSiEsArchivo
    split
    · exact (ordenado_cerrar sinMutex_none _).bind fun _ =>
        Orderly.guarded (above_none _) (ordenado_liberar _ _)
    · exact Orderly.pure _
  unfold eliminarArchivoInterna
  split
  · exact Orderly.pure _
  · exact hliberar.bind fun _ => (ordenado_cerrar sinMutex_none _).bind fun _ => Orderly.pure _

theorem ordenado_osadaLeerArchivo (basura : OsadaFile) (memoria : ℕ → UInt8) (path : Cadena)
    (bytesALeer posicionInicial : ℤ) :
    Ordenado (osadaLeerArchivo basura memoria path bytesALeer posicionInicial) fun _ => none := by
  unfold osadaLeerArchivo
  refine (ordenado_leerPath _ _).bind fun l => (Orderly.other rfl).bind fun d => ?_
  split
  · split
    · exact Orderly.pure _
    · split
      · exact Orderly.pure _
      · exact Orderly.stop
  · exact Orderly.pure _

theorem ordenado_osadaEditarArchivo (basura : OsadaFile) (path : Cadena)
    (inicioBytes bytesAEscribir : ℤ) (archivo : List UInt8) :
    Ordenado (osadaEditarArchivo basura path inicioBytes bytesAEscribir archivo) fun _ => none := by
  unfold osadaEditarArchivo
  refine (ordenado_leerPath _ _).bind fun l => ?_
  split
  · exact ordenado_conEntrada _ fun g hg => ordenado_cerrar hg _
  · exact Orderly.pure _

theorem ordenado_osadaTruncarArchivo (basura : OsadaFile) (path : Cadena) (bytesATruncar : ℤ) :
    Ordenado (osadaTruncarArchivo basura path bytesATruncar) fun _ => none := by
  unfold osadaTruncarArchivo
  refine (ordenado_leerPath _ _).bind fun l => ?_
  split
  · exact ordenado_conEntrada _ fun g hg => ordenado_truncar _ _ _ hg
  · exact Orderly.pure _

theorem ordenado_osadaEliminarArchivo (basura : OsadaFile) (path : Cadena) (hard : ℕ) :
    Ordenado (osadaEliminarArchivo basura path hard) fun _ => none := by
  unfold osadaEliminarArchivo
  refine (Orderly.other rfl).bind fun archivos => (ordenado_leerPath _ _).bind fun l => ?_
  split
  · split
    · exact ordenado_eliminarArchivoInterna _ _ _ _
    · exact Orderly.pure _
  · exact Orderly.pure _

theorem ordenado_osadaEstructuraDirectorio (basura : OsadaFile) (memoria : ℕ → UInt8)
    (path : Cadena) : Ordenado (osadaEstructuraDirectorio basura memoria path) fun _ => none := by
  unfold osadaEstructuraDirectorio
  refine (ordenado_leerPath _ _).bind fun l => (Orderly.other rfl).bind fun d => ?_
  split
  · split <;> exact Orderly.pure _
  · exact Orderly.pure _

theorem ordenado_osadaCrearArchivo (hora : ℕ) (basura : OsadaFile) (path : Cadena) :
    Ordenado (osadaCrearArchivo hora basura path) fun _ => none := by
  unfold osadaCrearArchivo
  refine (Orderly.other rfl).bind fun d => ?_
  generalize Osada.obtenerCantidadDeArchivos d = cantidad
  rcases Nat.lt_or_ge cantidad 2048 with hlt | hle
  · rw [if_neg (Nat.not_le.mpr hlt)]
    exact ordenado_crearEntrada _ _ _ _ _
  · rw [if_pos hle]
    exact Orderly.pure _

theorem ordenado_osadaCrearDirectorio (hora : ℕ) (basura : OsadaFile) (path : Cadena) :
    Ordenado (osadaCrearDirectorio hora basura path) fun _ => none := by
  unfold osadaCrearDirectorio
  refine (Orderly.other rfl).bind fun d => ?_
  generalize Osada.obtenerCantidadDeArchivos d = cantidad
  rcases Nat.lt_or_ge cantidad 2048 with hlt | hle
  · rw [if_neg (Nat.not_le.mpr hlt)]
    refine (ordenado_crearEntrada _ _ _ _ _).bind fun posicion => ?_
    split
    · exact Orderly.pure _
    · exact Orderly.stop
  · rw [if_pos hle]
    exact Orderly.pure _

theorem ordenado_osadaRenombrarArchivo (basura : OsadaFile) (viejoNombre nuevoNombre : Cadena) :
    Ordenado (osadaRenombrarArchivo basura viejoNombre nuevoNombre) fun _ => none := by
  unfold osadaRenombrarArchivo
  refine (ordenado_leerPath _ _).bind fun viejo => (ordenado_leerPath _ _).bind fun nuevo => ?_
  split
  · split
    · exact (ordenado_cerrar sinMutex_none _).bind fun _ => Orderly.pure _
    · exact Orderly.pure _
  · exact Orderly.pure _

theorem ordenado_osadaUtimens (basura : OsadaFile) (path : Cadena) (segundos : ℤ) :
    Ordenado (osadaUtimens basura path segundos) fun _ => none := by
  unfold osadaUtimens
  refine (ordenado_leerPath _ _).bind fun l => ?_
  split
  · split
    · exact (ordenado_cerrar sinMutex_none _).bind fun _ => Orderly.pure _
    · exact Orderly.pure _
  · exact Orderly.pure _

/-- By every path a request gives back the locks that it takes. -/
theorem ordenado_programa (m : Momento) (p : Pedido) :
    Ordenado (programa m p) fun _ => none := by
  cases p with
  | abrirArchivo path =>
    have h : Ordenado (osadaExisteArchivo m.basura path) fun _ => none := by
      unfold osadaExisteArchivo
      exact (ordenado_leerPath _ _).bind fun _ => Orderly.pure _
    exact h
  | leerArchivo size offset path =>
    exact ordenado_osadaLeerArchivo m.basura m.memoria path size offset
  | escribirArchivo offset path buf =>
    exact ordenado_osadaEditarArchivo m.basura path offset (i32 buf.length) buf
  | truncarArchivo path offset => exact ordenado_osadaTruncarArchivo m.basura path offset
  | borrarArchivo path => exact ordenado_osadaEliminarArchivo m.basura path 0
  | getDir path => exact ordenado_osadaEstructuraDirectorio m.basura m.memoria path
  | getAttr path =>
    have h : Ordenado (osadaGetAtributosArchivo m.basura path) fun _ => none := by
      unfold osadaGetAtributosArchivo
      refine (ordenado_leerPath _ _).bind fun l => ?_
      split <;> exact Orderly.pure _
    exact h
  | crearDirectorio path =>
    refine (ordenado_osadaCrearDirectorio m.hora m.basura path).bind fun resultado => ?_
    split
    · exact Orderly.stop
    · exact Orderly.pure _
  | crearArchivo path => exact ordenado_osadaCrearArchivo m.hora m.basura path
  | renombrarArchivo desde hasta => exact ordenado_osadaRenombrarArchivo m.basura desde hasta
  | utimens path segundos => exact ordenado_osadaUtimens m.basura path segundos

end Ordenado

/-! ## Runs -/

section Runs
variable {ι : Type} [DecidableEq ι]

theorem rango_le (k : Cerrojo) : k.rango ≤ 1 := by
  cases k with
  | entrada i => exact Nat.zero_le 1
  | _ => exact Nat.le_refl 1

theorem ordenado_request {x : Programa PUnit} (hx : hilosServidor.request x) :
    Ordenado x fun _ => none := by
  obtain ⟨m, p, rfl⟩ := hx
  exact (ordenado_programa m p).bind fun _ => Orderly.pure _

/-- The thread is between requests, or between two rounds of the search for a free entry. -/
def EnPausa (c : Config ι Cerrojo Orden Orden.Respuesta Pokedex) (i : ι) : Prop :=
  c.thread i = .ret ⟨⟩ ∨
    ∃ archivos j next, c.thread i = .call (.other (.buscarEntrada archivos j)) next

omit [DecidableEq ι] in
theorem resting_iff {c : Config ι Cerrojo Orden Orden.Respuesta Pokedex} {i : ι} :
    Resting hilosServidor c i ↔ EnPausa c i := by
  constructor
  · rintro (ht | ⟨o, next, ht, ho⟩)
    · exact .inl ht
    · cases o with
      | buscarEntrada archivos j => exact .inr ⟨archivos, j, next, ht⟩
      | _ => exact absurd rfl ho
  · rintro (ht | ⟨archivos, j, next, ht⟩)
    · exact .inl ht
    · exact .inr ⟨_, next, ht, Option.some_ne_none _⟩

/-- However the threads of the server are interleaved, as long as no search for an entry comes back
to the cursor: who has a lock to write has it alone, who is between requests has none, while one is
in the middle of a request one can go on, and without new requests they can go on until each is
between requests or between two rounds of its search, with no lock, or one has come to where it does
not go on. -/
theorem hilos_sin_bloqueo [Fintype ι] {s : Pokedex}
    {es : List (Event ι Cerrojo Orden Orden.Respuesta)}
    {c : Config ι Cerrojo Orden Orden.Respuesta Pokedex}
    (hrun : Run (Step hilosServidor) (start s) es c) (hok : ∀ e ∈ es, e.Ok SinAgotar) :
    (∀ i j k, i ≠ j → c.held i k = some .write → c.held j k = none) ∧
      (∀ i, c.thread i = .ret ⟨⟩ → ∀ k, c.held i k = none) ∧
      (∀ i, c.thread i ≠ .ret ⟨⟩ →
        (∃ e c', Step hilosServidor c e c' ∧ e.IsCommand ∧ e.Ok SinAgotar) ∨
          ∃ i, Broken hilosServidor SinAgotar c i) ∧
      ∃ es' c', Run (Step hilosServidor) c es' c' ∧ (∀ e ∈ es', e.IsCommand ∧ e.Ok SinAgotar) ∧
        ((∀ i, EnPausa c' i ∧ ∀ k, c'.held i k = none) ∨
          ∃ i, Broken hilosServidor SinAgotar c' i) := by
  have hc : Consistent hilosServidor Cerrojo.rango SinAgotar c :=
    consistent_run ordenado_cuerpo (fun x hx => ordenado_request hx) hrun hok
  refine ⟨hc.exclusive, fun i hi k => congrFun (hc.free_of_resting (.inl hi)) k,
    fun i hi => hc.goes_on rango_le hi, ?_⟩
  obtain ⟨es', c', hrun', hes', hc', hend⟩ :=
    hc.finishes rango_le ordenado_cuerpo fun x hx => ordenado_request hx
  refine ⟨es', c', hrun', hes', hend.imp_left fun hall i => ?_⟩
  exact ⟨resting_iff.mp (hall i), fun k => congrFun (hc'.free_of_resting (hall i)) k⟩

/-- A client asks for a file and another for its attributes. -/
theorem hilos_dos (m : Momento) (s : Pokedex) :
    ∃ (es : List (Event Bool Cerrojo Orden Orden.Respuesta))
      (c : Config Bool Cerrojo Orden Orden.Respuesta Pokedex),
      Run (Step hilosServidor) (start s) es c ∧ es.length = 3 ∧ ∀ e ∈ es, e.Ok SinAgotar := by
  obtain ⟨next, hnext⟩ : ∃ next, (programa m (.abrirArchivo Osada.rutaA) >>= fun _ => pure ⟨⟩ :
      Programa PUnit) = .call (.other .obtenerTablaArchivos) next := ⟨_, rfl⟩
  refine ⟨[.request false, .command false (.other .obtenerTablaArchivos) s.disco.archivos,
    .request true], _, .cons (.request rfl ⟨m, .abrirArchivo Osada.rutaA, rfl⟩)
    (.cons (.other hnext rfl rfl)
      (.cons (.request rfl ⟨m, .getAttr Osada.rutaA, rfl⟩) (.nil _))), rfl, ?_⟩
  intro e he
  simp only [List.mem_cons, List.not_mem_nil, or_false] at he
  rcases he with rfl | rfl | rfl <;> trivial

/-- The two clients can go on. -/
theorem hilos_sin_bloqueo_dos : ∃ (es : List (Event Bool Cerrojo Orden Orden.Respuesta))
    (c c' : Config Bool Cerrojo Orden Orden.Respuesta Pokedex),
    Run (Step hilosServidor) (start (Pokedex.inicial Osada.discoChico)) es c ∧ es.length = 3 ∧
      (∃ es', Run (Step hilosServidor) c es' c') ∧
        ((∀ i, EnPausa c' i ∧ ∀ k, c'.held i k = none) ∨
          ∃ i, Broken hilosServidor SinAgotar c' i) := by
  obtain ⟨es, c, hrun, hlength, hok⟩ := hilos_dos
    ⟨Pokedex.inicial Osada.discoChico, 0, OsadaFile.borrado, fun _ => 0⟩
    (Pokedex.inicial Osada.discoChico)
  obtain ⟨-, -, -, es', c', hrun', -, hend⟩ := hilos_sin_bloqueo hrun hok
  exact ⟨es, c, c', hrun, hlength, ⟨es', hrun'⟩, hend⟩

end Runs

end TpSo.PokeDex
