import TpSo.Base.Program
import TpSo.Osada.Funciones

/-!
# Writing and truncating, piece by piece

The same functions as programs: each `Orden` is what the server does under one lock, or one
read or write of the file. `run_editar` and `run_truncar` say that with nothing in between they
are the procedures.
-/

namespace TpSo.Osada.Hilado

open Function (update)

inductive Orden where
  | obtenerBloquesLibres
  | obtenerTablaAsignaciones
  | obtenerPrimerBloqueLibre
  | asignar (posicion valor : ℕ)
  | escribir (bloque : ℕ) (posicion : ℤ) (bytes : List UInt8)
  | editarBloqueEnBitmap (nBloque : ℕ) (ocupado : Bool)
  | reemplazar (posicion : ℕ) (descriptor : OsadaFile)

abbrev Orden.Respuesta : Orden → Type
  | obtenerBloquesLibres => ℕ
  | obtenerTablaAsignaciones => ℕ → ℕ
  | obtenerPrimerBloqueLibre => ℤ
  | asignar _ _ => PUnit
  | escribir _ _ _ => PUnit
  | editarBloqueEnBitmap _ _ => ℤ
  | reemplazar _ _ => ℤ

def Orden.ejecutar : (o : Orden) → Op Pokedex o.Respuesta
  | obtenerBloquesLibres => Op.get fun s => Osada.obtenerBloquesLibres s.disco
  | obtenerTablaAsignaciones => Op.get fun s => s.disco.asignaciones
  | obtenerPrimerBloqueLibre => Osada.obtenerPrimerBloqueLibre
  | asignar posicion valor => fun s => (some ⟨⟩, s.escribir (.asignacion posicion valor))
  | escribir bloque posicion bytes => fun s =>
    escribirDatos (u32 (bloque * 64 + s.disco.inicio * 64 + posicion)) bytes s
  | editarBloqueEnBitmap nBloque ocupado => Osada.editarBloqueEnBitmap nBloque ocupado
  | reemplazar posicion descriptor => reemplazarEstructuraDeArchivo posicion descriptor

abbrev Programa (α : Type) := Prog Orden Orden.Respuesta α

/-- The program run in one go. -/
abbrev Programa.seguido {α : Type} (x : Programa α) : Op Pokedex α := x.run Orden.ejecutar

section Programas

def obtenerBloquesLibres : Programa ℕ := .command Orden.obtenerBloquesLibres

def obtenerTablaAsignaciones : Programa (ℕ → ℕ) := .command Orden.obtenerTablaAsignaciones

def obtenerPrimerBloqueLibre : Programa ℤ := .command Orden.obtenerPrimerBloqueLibre

def asignar (posicion valor : ℕ) : Programa PUnit := .command (Orden.asignar posicion valor)

def escribir (bloque : ℕ) (posicion : ℤ) (bytes : List UInt8) : Programa PUnit :=
  .command (Orden.escribir bloque posicion bytes)

def editarBloqueEnBitmap (nBloque : ℕ) (ocupado : Bool) : Programa ℤ :=
  .command (Orden.editarBloqueEnBitmap nBloque ocupado)

def reemplazar (posicion : ℕ) (descriptor : OsadaFile) : Programa ℤ :=
  .command (Orden.reemplazar posicion descriptor)

/-- `asignarSiguienteBloque`: the disk first, then the private copy. -/
def asignarSiguiente (posicion valor : ℕ) (asignaciones : ℕ → ℕ) : Programa (ℕ → ℕ) := do
  let _ ← asignar posicion valor
  if posicion = uint32Max then .stop else pure (update asignaciones posicion valor)

def pedirPrimero (asignaciones : ℕ → ℕ) : Programa (ℕ × (ℕ → ℕ)) := do
  let bloque ← obtenerPrimerBloqueLibre
  let asignaciones ← asignarSiguiente (u32 bloque) uint32Max asignaciones
  pure (u32 bloque, asignaciones)

def primero (firstBlock : ℕ) (asignaciones : ℕ → ℕ) : Programa (ℕ × (ℕ → ℕ)) :=
  if firstBlock = uint32Max then pedirPrimero asignaciones else pure (firstBlock, asignaciones)

def pedirSiguiente (ultimo : ℕ) (asignaciones : ℕ → ℕ) : Programa (ℕ × (ℕ → ℕ)) := do
  let bloque ← obtenerPrimerBloqueLibre
  let asignaciones ← asignarSiguiente ultimo (u32 bloque) asignaciones
  let asignaciones ← asignarSiguiente (u32 bloque) uint32Max asignaciones
  pure (u32 bloque, asignaciones)

def escribirBloque (e : Edicion) : Programa Edicion := do
  if e.posicionInicial < 64 then
    escribir e.bloqueAEditar e.posicionInicial (e.resto.take e.largo.toNat)
  pure e.escrita

def avanzar (e : Edicion) : Programa Edicion :=
  if e.bloqueAEditar = uint32Max then .stop
  else if e.asignaciones e.bloqueAEditar = uint32Max ∧ 0 < e.bytesAEscribir then do
    let (siguiente, asignaciones) ← pedirSiguiente e.bloqueAEditar e.asignaciones
    pure { e with bloqueAEditar := siguiente, asignaciones := asignaciones }
  else pure { e with bloqueAEditar := e.asignaciones e.bloqueAEditar }

def editarTodos (fuel : ℕ) (e : Edicion) : Programa Edicion :=
  .whileDo (fun e => 0 < e.bytesAEscribir) (fun e => escribirBloque e >>= avanzar) fuel e

def editarInterna (descriptor : OsadaFile) (bytesAEscribir posicionInicial : ℤ)
    (edicion : List UInt8) : Programa (ℤ × OsadaFile) := do
  let libres ← obtenerBloquesLibres
  if u32 (descriptor.fileSize - posicionInicial + libres * 64) < u32 bytesAEscribir then
    pure (noHayEspacio, descriptor)
  else do
    let asignaciones ← obtenerTablaAsignaciones
    let (bloque, asignaciones) ← primero descriptor.firstBlock asignaciones
    let e ← editarTodos (bytesAEscribir.toNat + posicionInicial.toNat)
      { bloqueAEditar := bloque, bytesAEscribir := bytesAEscribir,
        posicionInicial := posicionInicial, bytesEscritos := 0, resto := edicion,
        asignaciones := asignaciones }
    pure (e.bytesEscritos, { descriptor with firstBlock := bloque })

def truncarUno (t : Truncado) : Programa Truncado := do
  let (siguiente, asignaciones) ←
    if t.siguienteBloque = uint32Max then pedirSiguiente t.bloqueAEditar t.asignaciones
    else pure (t.siguienteBloque, t.asignaciones)
  pure { bloqueAEditar := siguiente, siguienteBloque := asignaciones siguiente,
         inicio := t.inicio - 64, asignaciones := asignaciones }

def truncarTodos (fuel : ℕ) (t : Truncado) : Programa Truncado :=
  .whileDo (fun t => 0 < t.inicio) truncarUno fuel t

def liberarUno (asignaciones : ℕ → ℕ) (bloque : ℕ) : Programa ℕ := do
  let _ ← editarBloqueEnBitmap bloque false
  pure (asignaciones bloque)

def liberar (asignaciones : ℕ → ℕ) (desde : ℕ) : Programa ℕ :=
  .whileDo (fun bloque => bloque ≠ uint32Max) (liberarUno asignaciones) uint32Max desde

def cortar (firstBlock : ℕ) (t : Truncado) : Programa ℕ := do
  let (firstBlock, asignaciones) ←
    if t.siguienteBloque ≠ firstBlock then do
      let asignaciones ← asignarSiguiente t.bloqueAEditar uint32Max t.asignaciones
      pure (firstBlock, asignaciones)
    else pure (uint32Max, t.asignaciones)
  let _ ← liberar asignaciones t.siguienteBloque
  pure firstBlock

def hasta (descriptor : OsadaFile) (inicio : ℤ) : Programa (ℤ × OsadaFile) := do
  let asignaciones ← obtenerTablaAsignaciones
  let (siguiente, asignaciones) ←
    if inicio ≠ 0 then primero descriptor.firstBlock asignaciones
    else pure (descriptor.firstBlock, asignaciones)
  let t ← truncarTodos inicio.toNat
    { bloqueAEditar := siguiente, siguienteBloque := siguiente, inicio := inicio,
      asignaciones := asignaciones }
  let firstBlock ← cortar siguiente t
  pure (1, { descriptor with firstBlock := firstBlock })

def truncarInterna (descriptor : OsadaFile) (offset : ℕ) : Programa (ℤ × OsadaFile) := do
  let libres ← obtenerBloquesLibres
  if u32 (descriptor.fileSize + libres * 64) < offset then pure (noHayEspacio, descriptor)
  else hasta descriptor (i32 offset)

def editar (posicion : ℕ) (descriptor : OsadaFile) (inicioBytes bytesAEscribir : ℤ)
    (archivo : List UInt8) : Programa ℤ := do
  let r ← editarInterna descriptor bytesAEscribir inicioBytes archivo
  if r.1 = noHayEspacio then pure r.1
  else do
    let _ ← reemplazar posicion
      { r.2 with fileSize := tamanioEditado r.2.fileSize inicioBytes bytesAEscribir }
    pure r.1

def rellenar (descriptor : OsadaFile) (bytesATruncar : ℤ) : Programa (ℤ × OsadaFile) :=
  let largo := i32 (bytesATruncar - descriptor.fileSize)
  editarInterna descriptor largo (i32 descriptor.fileSize) (List.replicate largo.toNat 0)

def completar (posicion : ℕ) (descriptor : OsadaFile) (bytesATruncar : ℤ) : Programa ℤ := do
  let r ←
    if descriptor.fileSize < u32 bytesATruncar then rellenar descriptor bytesATruncar
    else pure (0, descriptor)
  reemplazar posicion { r.2 with fileSize := u32 bytesATruncar }

def truncar (posicion : ℕ) (descriptor : OsadaFile) (bytesATruncar : ℤ) : Programa ℤ := do
  let r ← truncarInterna descriptor (u32 bytesATruncar)
  if r.1 = 1 then do
    let _ ← completar posicion r.2 bytesATruncar
    pure r.1
  else pure r.1

end Programas

/-! ## In one go -/

section Seguido

theorem seguido_bind {α β : Type} (x : Programa α) (f : α → Programa β) :
    (x >>= f).seguido = x.seguido >>= fun a => (f a).seguido := Prog.run_bind _ x f

theorem seguido_pure {α : Type} (a : α) : (pure a : Programa α).seguido = pure a := rfl

theorem seguido_ite {α : Type} (c : Prop) [Decidable c] (x y : Programa α) :
    (if c then x else y).seguido = if c then x.seguido else y.seguido := apply_ite _ _ _ _

theorem bind_congr {α β : Type} {x : Op Pokedex α} {f g : α → Op Pokedex β}
    (h : ∀ a, f a = g a) : x >>= f = x >>= g := congrArg _ (funext h)

theorem run_asignarSiguiente (posicion valor : ℕ) (asignaciones : ℕ → ℕ) :
    (asignarSiguiente posicion valor asignaciones).seguido =
      asignarSiguienteBloque posicion valor asignaciones := by
  funext s
  have hasignar : (asignar posicion valor).seguido s =
      (some ⟨⟩, s.escribir (.asignacion posicion valor)) :=
    congrFun (Prog.run_command Orden.ejecutar _) s
  rw [asignarSiguiente, seguido_bind, Op.bind_some hasignar, seguido_ite, asignarSiguienteBloque]
  split <;> rfl

theorem run_obtenerPrimerBloqueLibre :
    obtenerPrimerBloqueLibre.seguido = Osada.obtenerPrimerBloqueLibre := Prog.run_command _ _

theorem run_pedirPrimero (asignaciones : ℕ → ℕ) :
    (pedirPrimero asignaciones).seguido = pedirPrimerBloque asignaciones := by
  rw [pedirPrimero, seguido_bind, run_obtenerPrimerBloqueLibre, pedirPrimerBloque]
  refine bind_congr fun b => ?_
  rw [seguido_bind, run_asignarSiguiente]
  exact bind_congr fun a => seguido_pure _

theorem run_primero (firstBlock : ℕ) (asignaciones : ℕ → ℕ) :
    (primero firstBlock asignaciones).seguido = primerBloque firstBlock asignaciones := by
  rw [primero, seguido_ite, run_pedirPrimero, primerBloque, seguido_pure]

theorem run_pedirSiguiente (ultimo : ℕ) (asignaciones : ℕ → ℕ) :
    (pedirSiguiente ultimo asignaciones).seguido = pedirBloqueSiguiente ultimo asignaciones := by
  rw [pedirSiguiente, seguido_bind, run_obtenerPrimerBloqueLibre, pedirBloqueSiguiente]
  refine bind_congr fun b => ?_
  rw [seguido_bind, run_asignarSiguiente]
  refine bind_congr fun a => ?_
  rw [seguido_bind, run_asignarSiguiente]
  exact bind_congr fun a => seguido_pure _

theorem run_escribirBloque (e : Edicion) : (escribirBloque e).seguido = escribirEnBloque e := by
  funext s
  rw [escribirEnBloque_apply, escribirBloque]
  by_cases hpos : e.posicionInicial < 64
  · have hescribir : (escribir e.bloqueAEditar e.posicionInicial
        (e.resto.take e.largo.toNat)).seguido s = (some ⟨⟩, s.escribir (e.escritura s.disco)) :=
      congrFun (Prog.run_command Orden.ejecutar _) s
    rw [if_pos hpos, if_pos hpos, seguido_bind, Op.bind_some hescribir]
    rfl
  · rw [if_neg hpos, if_neg hpos]
    rfl

theorem run_obtenerBloquesLibres :
    obtenerBloquesLibres.seguido = Op.get fun s => Osada.obtenerBloquesLibres s.disco :=
  Prog.run_command _ _

theorem run_obtenerTablaAsignaciones :
    obtenerTablaAsignaciones.seguido = Op.get fun s => s.disco.asignaciones :=
  Prog.run_command _ _

theorem get_congr {α β γ : Type} {f : Pokedex → α} {g : Pokedex → β} {k : α → Op Pokedex γ}
    {k' : β → Op Pokedex γ} (h : ∀ s, k (f s) s = k' (g s) s) :
    Op.get f >>= k = Op.get g >>= k' := by
  funext s
  rw [Op.get_bind, Op.get_bind, h]

theorem run_avanzar (e : Edicion) : (avanzar e).seguido = avanzarBloque e := by
  rw [avanzar, avanzarBloque, seguido_ite, seguido_ite, seguido_bind, run_pedirSiguiente,
    seguido_pure]
  rfl

theorem run_editarTodos (fuel : ℕ) (e : Edicion) :
    (editarTodos fuel e).seguido = editarBloques fuel e := by
  have hbody : (fun e => (escribirBloque e >>= avanzar).seguido) = editarBloque := by
    funext e
    rw [seguido_bind, run_escribirBloque, editarBloque]
    exact bind_congr run_avanzar
  rw [editarTodos, Programa.seguido, Prog.run_whileDo, hbody, editarBloques]

theorem run_editarInterna (descriptor : OsadaFile) (bytesAEscribir posicionInicial : ℤ)
    (edicion : List UInt8) :
    (editarInterna descriptor bytesAEscribir posicionInicial edicion).seguido =
      editarArchivoInterna descriptor bytesAEscribir posicionInicial edicion := by
  rw [editarInterna, seguido_bind, run_obtenerBloquesLibres, editarArchivoInterna]
  refine get_congr fun s => ?_
  rw [seguido_ite]
  split
  · rfl
  · rw [seguido_bind, run_obtenerTablaAsignaciones, Op.get_bind, seguido_bind, run_primero]
    refine congrFun (bind_congr fun r => ?_) s
    rw [seguido_bind, run_editarTodos]
    rfl

theorem run_truncarUno (t : Truncado) : (truncarUno t).seguido = truncarBloque t := by
  rw [truncarUno, truncarBloque]
  split
  · rw [seguido_bind, run_pedirSiguiente]
    exact bind_congr fun r => seguido_pure _
  · rw [seguido_bind, seguido_pure]
    exact bind_congr fun r => seguido_pure _

theorem run_truncarTodos (fuel : ℕ) (t : Truncado) :
    (truncarTodos fuel t).seguido = truncarBloques fuel t := by
  have hbody : (fun t => (truncarUno t).seguido) = truncarBloque := funext run_truncarUno
  rw [truncarTodos, Programa.seguido, Prog.run_whileDo, hbody, truncarBloques]

theorem run_liberar (asignaciones : ℕ → ℕ) (desde : ℕ) :
    (liberar asignaciones desde).seguido = liberarBloques asignaciones desde := by
  have hbit : ∀ b v, (editarBloqueEnBitmap b v).seguido = Osada.editarBloqueEnBitmap b v :=
    fun _ _ => Prog.run_command _ _
  have huno : (fun b => (liberarUno asignaciones b).seguido) = liberarBloque asignaciones := by
    funext b
    rw [liberarUno, seguido_bind, hbit, liberarBloque]
    exact bind_congr fun _ => seguido_pure _
  rw [liberar, Programa.seguido, Prog.run_whileDo, huno, liberarBloques]

theorem run_cortar (firstBlock : ℕ) (t : Truncado) :
    (cortar firstBlock t).seguido = cortarCadena firstBlock t := by
  have hresto : ∀ r : ℕ × (ℕ → ℕ), (liberar r.2 t.siguienteBloque >>= fun _ =>
      pure r.1 : Programa ℕ).seguido =
      (liberarBloques r.2 t.siguienteBloque >>= fun _ => pure r.1) := by
    intro r
    rw [seguido_bind, run_liberar]
    rfl
  rw [cortar, cortarCadena]
  split
  · rw [seguido_bind, run_asignarSiguiente]
    refine bind_congr fun asig => ?_
    rw [seguido_bind, seguido_pure]
    exact bind_congr hresto
  · rw [seguido_bind, seguido_pure]
    exact bind_congr hresto

theorem run_hasta (descriptor : OsadaFile) (inicio : ℤ) :
    (hasta descriptor inicio).seguido = truncarHasta descriptor inicio := by
  have hresto : ∀ r : ℕ × (ℕ → ℕ), (truncarTodos inicio.toNat
      { bloqueAEditar := r.1, siguienteBloque := r.1, inicio := inicio, asignaciones := r.2 } >>=
        fun t => cortar r.1 t >>= fun firstBlock =>
          pure (1, { descriptor with firstBlock := firstBlock }) :
        Programa (ℤ × OsadaFile)).seguido =
      (truncarBloques inicio.toNat
        { bloqueAEditar := r.1, siguienteBloque := r.1, inicio := inicio,
          asignaciones := r.2 } >>= fun t => cortarCadena r.1 t >>= fun firstBlock =>
        pure (1, { descriptor with firstBlock := firstBlock })) := by
    intro r
    rw [seguido_bind, run_truncarTodos]
    refine bind_congr fun t => ?_
    rw [seguido_bind, run_cortar]
    rfl
  rw [hasta, seguido_bind, run_obtenerTablaAsignaciones, truncarHasta]
  refine get_congr fun s => ?_
  split
  · rw [seguido_bind, run_primero]
    exact congrFun (bind_congr hresto) s
  · rw [seguido_bind, seguido_pure]
    exact congrFun (bind_congr hresto) s

theorem run_truncarInterna (descriptor : OsadaFile) (offset : ℕ) :
    (truncarInterna descriptor offset).seguido = truncarArchivoInterna descriptor offset := by
  rw [truncarInterna, seguido_bind, run_obtenerBloquesLibres, truncarArchivoInterna]
  refine get_congr fun s => ?_
  rw [seguido_ite, run_hasta]
  split <;> rfl

theorem run_reemplazar (posicion : ℕ) (descriptor : OsadaFile) :
    (reemplazar posicion descriptor).seguido =
      reemplazarEstructuraDeArchivo posicion descriptor := Prog.run_command _ _

/-- The commit of a write is the program, run in one go under the lock of its entry. -/
theorem run_editar {posicion : ℕ} (hposicion : posicion < 2048) (descriptor : OsadaFile)
    (inicioBytes bytesAEscribir : ℤ) (archivo : List UInt8) :
    (editar posicion descriptor inicioBytes bytesAEscribir archivo).seguido =
      confirmarEditar ⟨some descriptor, .archivoExiste, posicion⟩ inicioBytes bytesAEscribir
        archivo := by
  rw [editar, seguido_bind, run_editarInterna, confirmarEditar]
  simp only [tomarLock_bind hposicion]
  refine bind_congr fun r => ?_
  rw [seguido_ite, seguido_bind, run_reemplazar]
  rfl

theorem run_completar (posicion : ℕ) (descriptor : OsadaFile) (bytesATruncar : ℤ) :
    (completar posicion descriptor bytesATruncar).seguido =
      completarTruncado posicion descriptor bytesATruncar := by
  rw [completar, completarTruncado]
  split
  · rw [seguido_bind, rellenar, run_editarInterna]
    exact bind_congr fun r => run_reemplazar _ _
  · rw [seguido_bind, seguido_pure]
    exact bind_congr fun r => run_reemplazar _ _

theorem run_truncar {posicion : ℕ} (hposicion : posicion < 2048) (descriptor : OsadaFile)
    (bytesATruncar : ℤ) :
    (truncar posicion descriptor bytesATruncar).seguido =
      confirmarTruncar ⟨some descriptor, .archivoExiste, posicion⟩ bytesATruncar := by
  rw [truncar, seguido_bind, run_truncarInterna, confirmarTruncar]
  simp only [tomarLock_bind hposicion]
  refine bind_congr fun r => ?_
  rw [seguido_ite, seguido_bind, run_completar]
  rfl

end Seguido

end TpSo.Osada.Hilado
