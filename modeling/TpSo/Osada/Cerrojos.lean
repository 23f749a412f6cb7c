import TpSo.Base.RwLocks
import TpSo.Osada.Consultas
import TpSo.Osada.Ordenes

/-!
# The locks of the server

Every request with the locks that its thread takes: one for each entry of the table, read by the
search for a name and written by what changes a file, and three mutexes within. What is done without
a lock, or under one, is a command. The search for a free entry is a procedure that calls itself, for
other threads move the cursor and nothing bounds its rounds; one that comes back to the cursor goes
out with the mutex taken.
-/

namespace TpSo.Osada.Cerrado

open Function (update)

inductive Cerrojo where
  | entrada (i : ℕ)
  | lockBitmap
  | mutexAsignacion
  | obtenerEntradaArchivoLibreMutex
  deriving DecidableEq

/-- The mutexes are taken with the lock of an entry held, never the other way. -/
def Cerrojo.rango : Cerrojo → ℕ
  | entrada _ => 0
  | lockBitmap | mutexAsignacion | obtenerEntradaArchivoLibreMutex => 1

inductive Orden where
  | archivo (o : Hilado.Orden)
  | obtenerTablaArchivos
  | leerDisco
  | normalizarCursor
  | probarEntrada (archivos : ℕ → OsadaFile) (i : ℕ)
  | ultimaEntradaLibreDeTabla
  | buscarEntrada (archivos : ℕ → OsadaFile) (i : ℕ)
  | escribirOtorgada (posicion : ℕ) (descriptor : OsadaFile)

abbrev Orden.Respuesta : Orden → Type
  | archivo o => o.Respuesta
  | obtenerTablaArchivos => ℕ → OsadaFile
  | leerDisco => Disco
  | normalizarCursor => ℕ
  | probarEntrada _ _ => Option ℤ × ℕ
  | ultimaEntradaLibreDeTabla => ℕ
  | buscarEntrada _ _ => Option ℤ × ℕ
  | escribirOtorgada _ _ => PUnit

/-- What an order does with nothing in between. -/
def Orden.ejecutar : (o : Orden) → Op Pokedex o.Respuesta
  | archivo o => o.ejecutar
  | obtenerTablaArchivos => Op.get fun s => s.disco.archivos
  | leerDisco => Op.get Pokedex.disco
  | normalizarCursor => Osada.normalizarCursor
  | probarEntrada archivos i => Osada.probarEntrada archivos i
  | ultimaEntradaLibreDeTabla => Op.get Pokedex.ultimaEntradaLibreDeTabla
  | buscarEntrada archivos i => Osada.buscarEntrada archivos 2048 i
  | escribirOtorgada posicion descriptor => Osada.escribirOtorgada posicion descriptor

abbrev Programa (α : Type) := RwProg Cerrojo Orden Orden.Respuesta α

abbrev orden (o : Orden) : Programa o.Respuesta := RwProg.other o

abbrev rdlock (i : ℕ) : Programa PUnit := RwProg.lock .read (.entrada i)

abbrev unlock (k : Cerrojo) : Programa PUnit := RwProg.unlock k

abbrev mutex {α : Type} (k : Cerrojo) (x : Programa α) : Programa α := RwProg.guarded .write k x

/-- An order with the lock that the function of its name takes. -/
def conCerrojo : (o : Hilado.Orden) → Programa o.Respuesta
  | .obtenerBloquesLibres => mutex .lockBitmap (orden (.archivo .obtenerBloquesLibres))
  | .obtenerPrimerBloqueLibre => mutex .lockBitmap (orden (.archivo .obtenerPrimerBloqueLibre))
  | .asignar posicion valor => mutex .mutexAsignacion (orden (.archivo (.asignar posicion valor)))
  | .obtenerTablaAsignaciones => orden (.archivo .obtenerTablaAsignaciones)
  | .escribir bloque posicion bytes => orden (.archivo (.escribir bloque posicion bytes))
  -- its callers hold the lock of the bitmap and say so
  | .editarBloqueEnBitmap nBloque ocupado => orden (.archivo (.editarBloqueEnBitmap nBloque ocupado))
  | .reemplazar posicion descriptor => orden (.archivo (.reemplazar posicion descriptor))

/-- A program with the locks of its orders. -/
def cerrar {α : Type} : Hilado.Programa α → Programa α
  | .ret a => .ret a
  | .stop => .stop
  | .call o k => conCerrojo o >>= fun r => cerrar (k r)

/-- A region under the lock of an entry. Past the array of locks there is none. -/
def conEntrada {α : Type} (posicion : ℕ) (x : Programa α) : Programa α :=
  if posicion < 2048 then RwProg.guarded .write (.entrada posicion) x else .stop

/-! ## Paths -/

/-- The test of `obtenerEstructuraDeArchivo`. -/
def coincide (archivos : ℕ → OsadaFile) (posicionPadre : ℕ) (nombre : List UInt8) (i : ℕ) : Bool :=
  getStringFromNombreOsada (archivos i).fname = nombre ∧
    (archivos i).state ≠ .deleted ∧ (archivos i).parentDirectory = posicionPadre

def buscarDesde (archivos : ℕ → OsadaFile) (posicionPadre : ℕ) (nombre : List UInt8) :
    List ℕ → Programa (Option ℕ)
  | [] => pure none
  | i :: is => do
    rdlock i
    if coincide archivos posicionPadre nombre i then do
      unlock (.entrada i)
      pure (some i)
    else do
      unlock (.entrada i)
      buscarDesde archivos posicionPadre nombre is

/-- The position and the copy of the entry. -/
def obtenerEstructuraDeArchivo (posicionPadre : ℕ) (nombre : List UInt8) :
    Programa (Option (ℕ × OsadaFile)) := do
  let archivos ← orden .obtenerTablaArchivos
  let hallado ← buscarDesde archivos posicionPadre nombre (List.range 2048)
  pure (hallado.map fun i => (i, archivos i))

def leerPartes : Option OsadaFile → ℕ → List (List UInt8) → Programa Lectura
  | directory, posicion, [] =>
    pure ⟨directory, if directory = none then .archivoNoPathValido else .archivoExiste, posicion⟩
  | directory, posicion, parte :: partes => do
    let hallado ← obtenerEstructuraDeArchivo posicion parte
    let siguiente := hallado.map Prod.snd
    let posicion := (hallado.map Prod.fst).getD posicion
    if directory.all (·.state = .regular) then pure ⟨siguiente, .pathInvalido, posicion⟩
    else leerPartes siguiente posicion partes

def leerPath (basura : OsadaFile) (path : Cadena) : Programa Lectura :=
  if path.1 = [barra] then pure ⟨some (descriptorRaiz basura), .archivoExiste, posicionBarra⟩
  else
    match stringSplit path with
    | none => .stop
    | some partes => leerPartes (some (descriptorRaiz basura)) posicionBarra partes

/-! ## New entries -/

/-- A round of the search, and the test of its `while`, which is out of the mutex. -/
def probar (archivos : ℕ → OsadaFile) (i : ℕ) : Programa (Option ℤ × ℕ) := do
  RwProg.lock .write .obtenerEntradaArchivoLibreMutex
  let r ← orden (.probarEntrada archivos i)
  if r.1 = some (-1) then pure r
  else do
    unlock .obtenerEntradaArchivoLibreMutex
    if r.1 = none then do
      let ultima ← orden .ultimaEntradaLibreDeTabla
      if r.2 = ultima then pure (some (-1), r.2) else pure r
    else pure r

/-- The orders that are procedures: a round of the search, and those that follow. -/
def cuerpo : (o : Orden) → Option (Programa o.Respuesta)
  | .buscarEntrada archivos i => some do
    let r ← probar archivos i
    if r.1 = none then orden (.buscarEntrada archivos r.2) else pure r
  | _ => none

def obtenerEstructuraDeArchivoLibre : Programa ℤ := do
  let archivos ← orden .obtenerTablaArchivos
  let i ← orden .normalizarCursor
  let r ← orden (.buscarEntrada archivos i)
  pure (r.1.getD (-1))

def escribirDescriptor (descriptor : OsadaFile) : Programa ℤ := do
  let libre ← obtenerEstructuraDeArchivoLibre
  conEntrada (u16 libre) do
    orden (.escribirOtorgada (u16 libre) descriptor)
    pure (i16 (u16 libre))

def crearEntrada (hora : ℕ) (basura : OsadaFile) (path : Cadena) (largoMaximo : Option ℕ)
    (estructura : OsadaFileState) : Programa ℤ := do
  let l ← leerPath basura path
  match l.resultado, obtenerNombreDeArchivoDePath path with
  | .archivoNoPathValido, some nombre =>
    if largoMaximo.all (nombre.length ≤ ·) then
      if estructura = .regular ∨ estructura = .directory then
        escribirDescriptor (descriptorNuevo hora basura nombre l.posicion estructura)
      else pure (-1)
    else pure Resultado.pathInvalido.toInt
  | _, _ => pure Resultado.pathInvalido.toInt

def osadaCrearArchivo (hora : ℕ) (basura : OsadaFile) (path : Cadena) : Programa ℤ := do
  let d ← orden .leerDisco
  if 2048 ≤ obtenerCantidadDeArchivos d then pure noHayDescriptores
  else crearEntrada hora basura path (some 17) .regular

def osadaCrearDirectorio (hora : ℕ) (basura : OsadaFile) (path : Cadena) : Programa ℤ := do
  let d ← orden .leerDisco
  if 2048 ≤ obtenerCantidadDeArchivos d then pure noHayDescriptores
  else do
    let posicion ← crearEntrada hora basura path none .directory
    if (obtenerNombreDeArchivoDePath path).isSome then pure posicion else .stop

/-! ## Changes of an entry -/

def osadaEditarArchivo (basura : OsadaFile) (path : Cadena) (inicioBytes bytesAEscribir : ℤ)
    (archivo : List UInt8) : Programa ℤ := do
  let l ← leerPath basura path
  match l.resultado, l.descriptor with
  | .archivoExiste, some descriptor =>
    conEntrada l.posicion
      (cerrar (Hilado.editar l.posicion descriptor inicioBytes bytesAEscribir archivo))
  | _, _ => pure archivoInexistente

/-- The blocks that are left over are given back under one lock. -/
def cortar (firstBlock : ℕ) (t : Truncado) : Programa ℕ := do
  let (firstBlock, asignaciones) ←
    if t.siguienteBloque ≠ firstBlock then do
      let asignaciones ← cerrar (Hilado.asignarSiguiente t.bloqueAEditar uint32Max t.asignaciones)
      pure (firstBlock, asignaciones)
    else pure (uint32Max, t.asignaciones)
  let _ ← mutex .lockBitmap (cerrar (Hilado.liberar asignaciones t.siguienteBloque))
  pure firstBlock

def hasta (descriptor : OsadaFile) (inicio : ℤ) : Programa (ℤ × OsadaFile) := do
  let asignaciones ← cerrar Hilado.obtenerTablaAsignaciones
  let (siguiente, asignaciones) ←
    if inicio ≠ 0 then cerrar (Hilado.primero descriptor.firstBlock asignaciones)
    else pure (descriptor.firstBlock, asignaciones)
  let t ← cerrar (Hilado.truncarTodos inicio.toNat
    { bloqueAEditar := siguiente, siguienteBloque := siguiente, inicio := inicio,
      asignaciones := asignaciones })
  let firstBlock ← cortar siguiente t
  pure (1, { descriptor with firstBlock := firstBlock })

def truncarInterna (descriptor : OsadaFile) (offset : ℕ) : Programa (ℤ × OsadaFile) := do
  let libres ← cerrar Hilado.obtenerBloquesLibres
  if u32 (descriptor.fileSize + libres * 64) < offset then pure (noHayEspacio, descriptor)
  else hasta descriptor (i32 offset)

def truncar (posicion : ℕ) (descriptor : OsadaFile) (bytesATruncar : ℤ) : Programa ℤ := do
  let r ← truncarInterna descriptor (u32 bytesATruncar)
  if r.1 = 1 then do
    let _ ← cerrar (Hilado.completar posicion r.2 bytesATruncar)
    pure r.1
  else pure r.1

def osadaTruncarArchivo (basura : OsadaFile) (path : Cadena) (bytesATruncar : ℤ) :
    Programa ℤ := do
  let l ← leerPath basura path
  match l.resultado, l.descriptor with
  | .archivoExiste, some descriptor =>
    conEntrada l.posicion (truncar l.posicion descriptor bytesATruncar)
  | _, _ => pure archivoInexistente

/-- Neither the old entry nor the new name is locked. -/
def osadaRenombrarArchivo (basura : OsadaFile) (viejoNombre nuevoNombre : Cadena) :
    Programa ℤ := do
  let viejo ← leerPath basura viejoNombre
  let nuevo ← leerPath basura nuevoNombre
  match viejo.resultado, viejo.descriptor, nuevo.resultado,
    obtenerNombreDeArchivoDePath nuevoNombre with
  | .archivoExiste, some descriptor, .archivoNoPathValido, some nombre =>
    if viejoNombre.1 ≠ [barra] then do
      let _ ← cerrar (Hilado.reemplazar viejo.posicion
        { strcpyDescriptor descriptor nombre with parentDirectory := nuevo.posicion })
      pure 1
    else pure archivoInexistente
  | _, _, _, _ => pure archivoInexistente

def liberarSiEsArchivo (descriptor : OsadaFile) : Programa ℕ :=
  if descriptor.state = .regular then do
    let asignaciones ← cerrar Hilado.obtenerTablaAsignaciones
    mutex .lockBitmap (cerrar (Hilado.liberar asignaciones descriptor.firstBlock))
  else pure 0

def eliminarArchivoInterna (archivos : ℕ → OsadaFile) (posicion : ℕ) (descriptor : OsadaFile)
    (hard : ℕ) : Programa ℤ := do
  if hard = 0 ∧ tieneHijos archivos posicion then pure directorioNoVacio
  else do
    let _ ← liberarSiEsArchivo descriptor
    let _ ← cerrar (Hilado.reemplazar posicion { descriptor with state := .deleted })
    pure 1

def osadaEliminarArchivo (basura : OsadaFile) (path : Cadena) (hard : ℕ) : Programa ℤ := do
  let archivos ← orden .obtenerTablaArchivos
  let l ← leerPath basura path
  match l.resultado, l.descriptor with
  | .archivoExiste, some descriptor =>
    if path.1 ≠ [barra] then eliminarArchivoInterna archivos l.posicion descriptor hard
    else pure archivoInexistente
  | _, _ => pure archivoInexistente

def osadaUtimens (basura : OsadaFile) (path : Cadena) (segundos : ℤ) : Programa ℤ := do
  let l ← leerPath basura path
  match l.resultado, l.descriptor with
  | .archivoExiste, some descriptor =>
    if path.1 ≠ [barra] then do
      let _ ← cerrar (Hilado.reemplazar l.posicion { descriptor with lastmod := u32 segundos })
      pure 1
    else pure (-1)
  | _, _ => pure (-1)

/-! ## Reads -/

def osadaExisteArchivo (basura : OsadaFile) (path : Cadena) : Programa ℤ := do
  let l ← leerPath basura path
  pure (if l.resultado = .archivoExiste then 0 else -1)

def osadaEstructuraDirectorio (basura : OsadaFile) (memoria : ℕ → UInt8) (path : Cadena) :
    Programa (List DirectoryElement) := do
  let l ← leerPath basura path
  let d ← orden .leerDisco
  match l.resultado, l.descriptor with
  | .archivoExiste, some directorio =>
    if directorio.state = .directory then
      pure ((listarDirectorio d l.posicion).map (elementoDe memoria))
    else pure []
  | _, _ => pure []

def osadaLeerArchivo (basura : OsadaFile) (memoria : ℕ → UInt8) (path : Cadena)
    (bytesALeer posicionInicial : ℤ) : Programa (Option (List UInt8)) := do
  let l ← leerPath basura path
  let d ← orden .leerDisco
  match l.resultado, l.descriptor with
  | .archivoExiste, some descriptor =>
    if descriptor.state = .directory ∨ i32 bytesALeer < 0 then pure none
    else
      match (obtenerArchivoInterna d descriptor (i32 bytesALeer) (i32 posicionInicial)
        ⟨[], []⟩).1 with
      | some leido =>
        let n := (i32 bytesALeer).toNat
        pure (some ((leido.1 ++ sinEscribir memoria n).take n))
      | none => .stop
  | _, _ => pure none

def osadaGetAtributosArchivo (basura : OsadaFile) (path : Cadena) :
    Programa (Option DirectoryAttr) := do
  let l ← leerPath basura path
  match l.resultado, l.descriptor with
  | .archivoExiste, some descriptor =>
    pure (some ⟨descriptor.state.tipoArchivo, descriptor.fileSize, descriptor.lastmod⟩)
  | _, _ => pure none

/-! ## Alone -/

section Sola
variable {α β : Type}

/-- A program with nobody else in the server. -/
abbrev sola (x : Programa α) : Op Pokedex α := x.alone Orden.ejecutar

theorem sola_bind (x : Programa α) (f : α → Programa β) :
    sola (x >>= f) = sola x >>= fun a => sola (f a) := Prog.run_bind _ x f

theorem sola_ite (c : Prop) [Decidable c] (x y : Programa α) :
    sola (if c then x else y) = if c then sola x else sola y := apply_ite _ _ _ _

theorem sola_pure (a : α) : sola (pure a : Programa α) = pure a := rfl

theorem sola_orden (o : Orden) : sola (orden o) = o.ejecutar := RwProg.alone_other _ o

theorem sola_conCerrojo (o : Hilado.Orden) : sola (conCerrojo o) = o.ejecutar := by
  cases o with
  | obtenerBloquesLibres => exact (RwProg.alone_guarded _ _ _ _).trans (sola_orden _)
  | obtenerPrimerBloqueLibre => exact (RwProg.alone_guarded _ _ _ _).trans (sola_orden _)
  | asignar posicion valor => exact (RwProg.alone_guarded _ _ _ _).trans (sola_orden _)
  | _ => exact sola_orden _

theorem sola_cerrar (x : Hilado.Programa α) : sola (cerrar x) = x.seguido := by
  induction x with
  | ret a => rfl
  | stop => rfl
  | call o k ih =>
    change sola (conCerrojo o >>= fun r => cerrar (k r)) = _
    rw [sola_bind, sola_conCerrojo]
    exact congrArg _ (funext ih)

theorem sola_mutex (k : Cerrojo) (x : Programa α) : sola (mutex k x) = sola x :=
  RwProg.alone_guarded _ _ _ _

/-- What is past the array of locks cannot be locked, alone or not. -/
theorem sola_conEntrada (posicion : ℕ) (x : Programa α) :
    sola (conEntrada posicion x) = tomarLock posicion >>= fun _ => sola x := by
  unfold conEntrada
  split
  · next hposicion => rw [tomarLock_bind hposicion, sola, RwProg.alone_guarded]
  · next hposicion =>
    funext s
    rw [tomarLock_bind_fuera (Nat.not_lt.mp hposicion)]
    rfl

theorem sola_buscarDesde (archivos : ℕ → OsadaFile) (posicionPadre : ℕ) (nombre : List UInt8)
    (is : List ℕ) : sola (buscarDesde archivos posicionPadre nombre is) =
      pure (is.find? (coincide archivos posicionPadre nombre)) := by
  induction is with
  | nil => rfl
  | cons i is ih =>
    rw [buscarDesde, sola_bind, sola, RwProg.alone_lock, List.find?_cons]
    funext s
    rw [Op.pure_bind', sola_ite]
    cases hc : coincide archivos posicionPadre nombre i with
    | true => rfl
    | false =>
      rw [if_neg (by simp), sola_bind, sola, RwProg.alone_unlock, Op.pure_bind', ih]

theorem sola_obtenerEstructuraDeArchivo (posicionPadre : ℕ) (nombre : List UInt8) :
    sola (obtenerEstructuraDeArchivo posicionPadre nombre) = Op.get fun s =>
      (Osada.obtenerEstructuraDeArchivo s.disco posicionPadre nombre).map fun i =>
        (i, s.disco.archivos i) := by
  funext s
  rw [obtenerEstructuraDeArchivo, sola_bind, sola_orden]
  change (Op.get (fun s => s.disco.archivos) >>= fun archivos => _) s = _
  rw [Op.get_bind, sola_bind, sola_buscarDesde, Op.pure_bind']
  rfl

theorem sola_leerPartes (partes : List (List UInt8)) (directory : Option OsadaFile)
    (posicion : ℕ) : sola (leerPartes directory posicion partes) = Op.get fun s =>
      Osada.leerPartes s.disco directory posicion partes := by
  induction partes generalizing directory posicion with
  | nil => rfl
  | cons parte partes ih =>
    funext s
    rw [leerPartes, sola_bind, sola_obtenerEstructuraDeArchivo, Op.get_bind, sola_ite, ih,
      sola_pure, Op.get_apply, Osada.leerPartes]
    cases Osada.obtenerEstructuraDeArchivo s.disco posicion parte <;> split <;> rfl

theorem sola_leerPath (basura : OsadaFile) (path : Cadena) :
    sola (leerPath basura path) = leer basura path := by
  funext s
  rw [leer, leerPath, Osada.leerPath, sola_ite]
  by_cases hraiz : path.1 = [barra]
  · rw [if_pos hraiz, if_pos hraiz]
    rfl
  · rw [if_neg hraiz, if_neg hraiz]
    cases hpartes : stringSplit path with
    | none => rfl
    | some partes => exact congrFun (sola_leerPartes partes _ _) s

theorem probarEntrada_sigue {archivos : ℕ → OsadaFile} {i : ℕ} {r : Option ℤ × ℕ} {s s' : Pokedex}
    (h : probarEntrada archivos i s = (some r, s')) (hr : r.1 = none) :
    r.2 ≠ s'.ultimaEntradaLibreDeTabla := by
  rw [probarEntrada] at h
  generalize (if i + 1 = 2048 then 0 else i + 1) = i' at h
  dsimp only at h
  split at h
  · cases (Prod.mk.inj h).1
  · split at h
    · obtain ⟨rfl, -⟩ := Op.some_inj h
      cases hr
    · split at h
      · obtain ⟨rfl, -⟩ := Op.some_inj h
        cases hr
      · next hne =>
        obtain ⟨rfl, rfl⟩ := Op.some_inj h
        exact hne

theorem sola_probar (archivos : ℕ → OsadaFile) (i : ℕ) :
    sola (probar archivos i) = probarEntrada archivos i := by
  funext s
  have hprobar : sola (orden (.probarEntrada archivos i)) s = probarEntrada archivos i s :=
    congrFun (sola_orden _) s
  have hcursor : ∀ s, sola (orden .ultimaEntradaLibreDeTabla) s =
      (some s.ultimaEntradaLibreDeTabla, s) := fun s => congrFun (sola_orden _) s
  rw [probar, sola_bind, sola, RwProg.alone_lock, Op.pure_bind', sola_bind]
  rcases hrun : probarEntrada archivos i s with ⟨_ | r, s₁⟩
  · rw [hrun] at hprobar
    rw [Op.bind_none hprobar]
  · rw [hrun] at hprobar
    rw [Op.bind_some hprobar, sola_ite]
    by_cases hfin : r.1 = some (-1)
    · rw [if_pos hfin]
      rfl
    · rw [if_neg hfin, sola_bind, sola, RwProg.alone_unlock, Op.pure_bind', sola_ite]
      by_cases hsigue : r.1 = none
      · have hne : r.2 ≠ s₁.ultimaEntradaLibreDeTabla := probarEntrada_sigue hrun hsigue
        rw [if_pos hsigue, sola_bind, Op.bind_some (hcursor s₁), sola_ite, if_neg hne]
        rfl
      · rw [if_neg hsigue]
        rfl

/-- With nobody to move the cursor, the procedure gives what its order does. -/
theorem sola_cuerpo {archivos : ℕ → OsadaFile} {i : ℕ} {x : Programa (Option ℤ × ℕ)}
    {r : Option ℤ × ℕ} {s s' : Pokedex} (hx : cuerpo (.buscarEntrada archivos i) = some x)
    (h : buscarEntrada archivos 2048 i s = (some r, s')) : sola x s = (some r, s') := by
  obtain rfl := Option.some.inj hx
  have hvuelta : sola (do
      let r ← probar archivos i
      if r.1 = none then orden (.buscarEntrada archivos r.2) else pure r) =
      buscarEntrada archivos 2049 i := by
    rw [sola_bind, sola_probar]
    refine Hilado.bind_congr fun r => ?_
    rw [sola_ite, sola_orden]
    obtain ⟨hallado, i'⟩ := r
    cases hallado <;> rfl
  rw [hvuelta]
  exact Op.whileDo_succ 2048 h

theorem sola_obtenerEstructuraDeArchivoLibre :
    sola obtenerEstructuraDeArchivoLibre = Osada.obtenerEstructuraDeArchivoLibre := by
  rw [obtenerEstructuraDeArchivoLibre, sola_bind, sola_orden, Osada.obtenerEstructuraDeArchivoLibre]
  refine Hilado.bind_congr fun archivos => ?_
  rw [sola_bind, sola_orden]
  refine Hilado.bind_congr fun i => ?_
  rw [sola_bind, sola_orden]
  rfl

theorem sola_escribirDescriptor (descriptor : OsadaFile) :
    sola (escribirDescriptor descriptor) = Osada.escribirDescriptor descriptor := by
  rw [escribirDescriptor, sola_bind, sola_obtenerEstructuraDeArchivoLibre, Osada.escribirDescriptor]
  refine Hilado.bind_congr fun libre => ?_
  rw [sola_conEntrada]
  refine Hilado.bind_congr fun _ => ?_
  rw [sola_bind, sola_orden]
  rfl

theorem sola_crearEntrada (hora : ℕ) (basura : OsadaFile) (path : Cadena)
    (largoMaximo : Option ℕ) (estructura : OsadaFileState) :
    sola (crearEntrada hora basura path largoMaximo estructura) =
      Osada.crearEntrada hora basura path largoMaximo estructura := by
  rw [crearEntrada, sola_bind, sola_leerPath, Osada.crearEntrada]
  refine Hilado.bind_congr fun l => ?_
  cases hr : l.resultado with
  | archivoNoPathValido =>
    cases hnombre : obtenerNombreDeArchivoDePath path with
    | none => rfl
    | some nombre =>
      dsimp only
      rw [sola_ite, sola_ite, sola_escribirDescriptor, escribirDirectorioInterna]
      rfl
  | archivoExiste => rfl
  | pathInvalido => rfl

theorem sola_osadaCrearArchivo (hora : ℕ) (basura : OsadaFile) (path : Cadena) :
    sola (osadaCrearArchivo hora basura path) = Osada.osadaCrearArchivo hora basura path := by
  rw [osadaCrearArchivo, sola_bind, sola_orden, Osada.osadaCrearArchivo]
  refine Hilado.bind_congr fun d => ?_
  rw [sola_ite, sola_crearEntrada]
  rfl

theorem sola_osadaCrearDirectorio (hora : ℕ) (basura : OsadaFile) (path : Cadena) :
    sola (osadaCrearDirectorio hora basura path) =
      Osada.osadaCrearDirectorio hora basura path := by
  rw [osadaCrearDirectorio, sola_bind, sola_orden, Osada.osadaCrearDirectorio]
  refine Hilado.bind_congr fun d => ?_
  rw [sola_ite, sola_bind, sola_crearEntrada]
  refine congrArg _ (Hilado.bind_congr fun posicion => ?_)
  rw [sola_ite]
  rfl

/-- Under the lock of the entry, which may not be there, a commit is what it is alone. -/
theorem sola_editar (posicion : ℕ) (descriptor : OsadaFile) (inicioBytes bytesAEscribir : ℤ)
    (archivo : List UInt8) : sola (conEntrada posicion
      (cerrar (Hilado.editar posicion descriptor inicioBytes bytesAEscribir archivo))) =
      confirmarEditar ⟨some descriptor, .archivoExiste, posicion⟩ inicioBytes bytesAEscribir
        archivo := by
  rw [sola_conEntrada, sola_cerrar]
  by_cases hposicion : posicion < 2048
  · rw [tomarLock_bind hposicion, Hilado.run_editar hposicion]
  · funext s
    have hfuera := Nat.not_lt.mp hposicion
    rw [tomarLock_bind_fuera hfuera]
    exact (tomarLock_bind_fuera hfuera _ s).symm

theorem sola_osadaEditarArchivo (basura : OsadaFile) (path : Cadena)
    (inicioBytes bytesAEscribir : ℤ) (archivo : List UInt8) :
    sola (osadaEditarArchivo basura path inicioBytes bytesAEscribir archivo) =
      Osada.osadaEditarArchivo basura path inicioBytes bytesAEscribir archivo := by
  rw [osadaEditarArchivo, sola_bind, sola_leerPath, Osada.osadaEditarArchivo]
  refine Hilado.bind_congr fun l => ?_
  obtain ⟨descriptor, resultado, posicion⟩ := l
  cases resultado with
  | archivoExiste =>
    cases descriptor with
    | none => rfl
    | some descriptor => exact sola_editar ..
  | archivoNoPathValido => rfl
  | pathInvalido => rfl

theorem sola_cortar (firstBlock : ℕ) (t : Truncado) :
    sola (cortar firstBlock t) = (Hilado.cortar firstBlock t).seguido := by
  have hresto : ∀ r : ℕ × (ℕ → ℕ), sola (do
      let _ ← mutex .lockBitmap (cerrar (Hilado.liberar r.2 t.siguienteBloque))
      pure r.1) = (Hilado.liberar r.2 t.siguienteBloque >>= fun _ =>
        pure r.1 : Hilado.Programa ℕ).seguido := by
    intro r
    rw [sola_bind, sola_mutex, sola_cerrar, Hilado.seguido_bind]
    rfl
  rw [cortar, Hilado.cortar]
  split
  · rw [sola_bind, sola_cerrar, Hilado.seguido_bind]
    exact Hilado.bind_congr fun asignaciones => hresto (firstBlock, asignaciones)
  · exact hresto (uint32Max, t.asignaciones)

theorem sola_hasta (descriptor : OsadaFile) (inicio : ℤ) :
    sola (hasta descriptor inicio) = (Hilado.hasta descriptor inicio).seguido := by
  have hresto : ∀ r : ℕ × (ℕ → ℕ), sola (do
      let t ← cerrar (Hilado.truncarTodos inicio.toNat
        { bloqueAEditar := r.1, siguienteBloque := r.1, inicio := inicio, asignaciones := r.2 })
      let firstBlock ← cortar r.1 t
      pure (1, { descriptor with firstBlock := firstBlock })) =
      (do
        let t ← Hilado.truncarTodos inicio.toNat
          { bloqueAEditar := r.1, siguienteBloque := r.1, inicio := inicio, asignaciones := r.2 }
        let firstBlock ← Hilado.cortar r.1 t
        pure (1, { descriptor with firstBlock := firstBlock }) :
          Hilado.Programa (ℤ × OsadaFile)).seguido := by
    intro r
    rw [sola_bind, sola_cerrar, Hilado.seguido_bind]
    refine Hilado.bind_congr fun t => ?_
    rw [sola_bind, sola_cortar, Hilado.seguido_bind]
    rfl
  rw [hasta, Hilado.hasta, sola_bind, sola_cerrar, Hilado.seguido_bind]
  refine Hilado.bind_congr fun asignaciones => ?_
  split
  · rw [sola_bind, sola_cerrar, Hilado.seguido_bind]
    exact Hilado.bind_congr hresto
  · exact hresto (descriptor.firstBlock, asignaciones)

theorem sola_truncar (posicion : ℕ) (descriptor : OsadaFile) (bytesATruncar : ℤ) :
    sola (truncar posicion descriptor bytesATruncar) =
      (Hilado.truncar posicion descriptor bytesATruncar).seguido := by
  have hinterna : ∀ offset, sola (truncarInterna descriptor offset) =
      (Hilado.truncarInterna descriptor offset).seguido := by
    intro offset
    rw [truncarInterna, Hilado.truncarInterna, sola_bind, sola_cerrar, Hilado.seguido_bind]
    refine Hilado.bind_congr fun libres => ?_
    rw [sola_ite, Hilado.seguido_ite, sola_hasta]
    rfl
  rw [truncar, Hilado.truncar, sola_bind, hinterna, Hilado.seguido_bind]
  refine Hilado.bind_congr fun r => ?_
  rw [sola_ite, Hilado.seguido_ite, sola_bind, sola_cerrar, Hilado.seguido_bind]
  rfl

theorem sola_osadaTruncarArchivo (basura : OsadaFile) (path : Cadena) (bytesATruncar : ℤ) :
    sola (osadaTruncarArchivo basura path bytesATruncar) =
      Osada.osadaTruncarArchivo basura path bytesATruncar := by
  have hconfirmar : ∀ posicion descriptor, sola (conEntrada posicion
      (truncar posicion descriptor bytesATruncar)) =
      confirmarTruncar ⟨some descriptor, .archivoExiste, posicion⟩ bytesATruncar := by
    intro posicion descriptor
    rw [sola_conEntrada, sola_truncar]
    by_cases hposicion : posicion < 2048
    · rw [tomarLock_bind hposicion, Hilado.run_truncar hposicion]
    · funext s
      have hfuera := Nat.not_lt.mp hposicion
      rw [tomarLock_bind_fuera hfuera]
      exact (tomarLock_bind_fuera hfuera _ s).symm
  rw [osadaTruncarArchivo, sola_bind, sola_leerPath, Osada.osadaTruncarArchivo]
  refine Hilado.bind_congr fun l => ?_
  obtain ⟨descriptor, resultado, posicion⟩ := l
  cases resultado with
  | archivoExiste =>
    cases descriptor with
    | none => rfl
    | some descriptor => exact hconfirmar posicion descriptor
  | archivoNoPathValido => rfl
  | pathInvalido => rfl

theorem sola_reemplazar (posicion : ℕ) (descriptor : OsadaFile) :
    sola (cerrar (Hilado.reemplazar posicion descriptor)) =
      reemplazarEstructuraDeArchivo posicion descriptor :=
  (sola_cerrar _).trans (Hilado.run_reemplazar _ _)

theorem sola_osadaRenombrarArchivo (basura : OsadaFile) (viejoNombre nuevoNombre : Cadena) :
    sola (osadaRenombrarArchivo basura viejoNombre nuevoNombre) =
      Osada.osadaRenombrarArchivo basura viejoNombre nuevoNombre := by
  rw [osadaRenombrarArchivo, sola_bind, sola_leerPath, Osada.osadaRenombrarArchivo]
  refine Hilado.bind_congr fun viejo => ?_
  rw [sola_bind, sola_leerPath]
  refine Hilado.bind_congr fun nuevo => ?_
  obtain ⟨descriptor, resultado, posicion⟩ := viejo
  cases resultado with
  | archivoExiste =>
    cases descriptor with
    | none => rfl
    | some descriptor =>
      unfold confirmarRenombrar
      cases hr : nuevo.resultado with
      | archivoNoPathValido =>
        cases hnombre : obtenerNombreDeArchivoDePath nuevoNombre with
        | none => rfl
        | some nombre =>
          dsimp only
          rw [sola_ite, sola_bind, sola_reemplazar]
          rfl
      | archivoExiste => rfl
      | pathInvalido => rfl
  | archivoNoPathValido => rfl
  | pathInvalido => rfl

theorem sola_osadaEliminarArchivo (basura : OsadaFile) (path : Cadena) (hard : ℕ) :
    sola (osadaEliminarArchivo basura path hard) =
      Osada.osadaEliminarArchivo basura path hard := by
  have hliberar : ∀ descriptor, sola (liberarSiEsArchivo descriptor) =
      Osada.liberarSiEsArchivo descriptor := by
    intro descriptor
    rw [liberarSiEsArchivo, Osada.liberarSiEsArchivo, sola_ite, sola_bind, sola_cerrar,
      Hilado.run_obtenerTablaAsignaciones, marcarLiberadosLosBloquesDeBitmap]
    split
    · refine Hilado.bind_congr fun asignaciones => ?_
      rw [sola_mutex, sola_cerrar, Hilado.run_liberar]
    · rfl
  rw [osadaEliminarArchivo, sola_bind, sola_orden, Osada.osadaEliminarArchivo]
  refine Hilado.bind_congr fun archivos => ?_
  rw [sola_bind, sola_leerPath]
  refine Hilado.bind_congr fun l => ?_
  obtain ⟨descriptor, resultado, posicion⟩ := l
  cases resultado with
  | archivoExiste =>
    cases descriptor with
    | none => rfl
    | some descriptor =>
      unfold confirmarEliminar
      dsimp only
      rw [sola_ite, eliminarArchivoInterna, sola_ite, sola_bind, hliberar,
        Osada.eliminarArchivoInterna]
      split
      · split
        · rfl
        · refine Hilado.bind_congr fun _ => ?_
          rw [sola_bind, sola_reemplazar]
          rfl
      · rfl
  | archivoNoPathValido => rfl
  | pathInvalido => rfl

theorem sola_osadaUtimens (basura : OsadaFile) (path : Cadena) (segundos : ℤ) :
    sola (osadaUtimens basura path segundos) = Osada.osadaUtimens basura path segundos := by
  rw [osadaUtimens, sola_bind, sola_leerPath, Osada.osadaUtimens]
  refine Hilado.bind_congr fun l => ?_
  obtain ⟨descriptor, resultado, posicion⟩ := l
  cases resultado with
  | archivoExiste =>
    cases descriptor with
    | none => rfl
    | some descriptor =>
      unfold confirmarUtimens
      dsimp only
      rw [sola_ite, sola_bind, sola_reemplazar]
      rfl
  | archivoNoPathValido => rfl
  | pathInvalido => rfl

theorem sola_osadaExisteArchivo (basura : OsadaFile) (path : Cadena) :
    sola (osadaExisteArchivo basura path) = Osada.osadaExisteArchivo basura path := by
  rw [osadaExisteArchivo, sola_bind, sola_leerPath]
  rfl

theorem sola_osadaEstructuraDirectorio (basura : OsadaFile) (memoria : ℕ → UInt8)
    (path : Cadena) : sola (osadaEstructuraDirectorio basura memoria path) =
      Osada.osadaEstructuraDirectorio basura memoria path := by
  rw [osadaEstructuraDirectorio, sola_bind, sola_leerPath, Osada.osadaEstructuraDirectorio]
  refine Hilado.bind_congr fun l => ?_
  rw [sola_bind, sola_orden]
  refine Hilado.bind_congr fun d => ?_
  obtain ⟨directorio, resultado, posicion⟩ := l
  cases resultado with
  | archivoExiste =>
    cases directorio with
    | none => rfl
    | some directorio => exact sola_ite ..
  | archivoNoPathValido => rfl
  | pathInvalido => rfl

theorem sola_osadaLeerArchivo (basura : OsadaFile) (memoria : ℕ → UInt8) (path : Cadena)
    (bytesALeer posicionInicial : ℤ) :
    sola (osadaLeerArchivo basura memoria path bytesALeer posicionInicial) =
      Osada.osadaLeerArchivo basura memoria path bytesALeer posicionInicial := by
  rw [osadaLeerArchivo, sola_bind, sola_leerPath, Osada.osadaLeerArchivo]
  refine Hilado.bind_congr fun l => ?_
  rw [sola_bind, sola_orden]
  refine Hilado.bind_congr fun d => ?_
  obtain ⟨descriptor, resultado, posicion⟩ := l
  cases resultado with
  | archivoExiste =>
    cases descriptor with
    | none => rfl
    | some descriptor =>
      dsimp only
      rw [sola_ite]
      split
      · rfl
      · cases (obtenerArchivoInterna d descriptor (i32 bytesALeer) (i32 posicionInicial)
          ⟨[], []⟩).1 <;> rfl
  | archivoNoPathValido => rfl
  | pathInvalido => rfl

theorem sola_osadaGetAtributosArchivo (basura : OsadaFile) (path : Cadena) :
    sola (osadaGetAtributosArchivo basura path) = Osada.osadaGetAtributosArchivo basura path := by
  rw [osadaGetAtributosArchivo, sola_bind, sola_leerPath, Osada.osadaGetAtributosArchivo]
  refine Hilado.bind_congr fun l => ?_
  obtain ⟨descriptor, resultado, posicion⟩ := l
  cases resultado with
  | archivoExiste => cases descriptor <;> rfl
  | archivoNoPathValido => rfl
  | pathInvalido => rfl

end Sola

end TpSo.Osada.Cerrado
