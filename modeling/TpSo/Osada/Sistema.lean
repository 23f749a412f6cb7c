import TpSo.Base.FileTree
import TpSo.Base.Overwrite
import TpSo.Osada.Corridas
import TpSo.Osada.Vista

/-!
# What the operations are for

A file system is a tree of files and directories with a number of free blocks and of free entries.
This is what each operation should answer and leave there, and nothing here is said in terms of
tables, chains or bits. `EnRegla` are the calls on which the server does so.
-/

namespace TpSo.Osada

/-- A number, or the position of a new entry. -/
inductive Respuesta where
  | numero (r : ℤ)
  | posicion
  deriving DecidableEq

def Respuesta.Es : Respuesta → ℤ → Prop
  | numero r, r' => r' = r
  | posicion, r' => 0 ≤ r' ∧ r' < 2048

@[ext] structure Sistema where
  arbol : FileTree (List UInt8) (List UInt8)
  bloques : ℕ
  entradas : ℕ

def bloquesDeNodo : Option (Node (List UInt8)) → ℕ
  | some (.file bytes) => bloquesPara bytes.length
  | _ => 0

def Nombrable (largo : ℕ) (cs : List (List UInt8)) : Prop := ∀ c ∈ cs.getLast?, c.length ≤ largo

namespace Sistema

open Classical

variable (a : Sistema) (cs : List (List UInt8))

noncomputable def crear (nodo : Node (List UInt8)) : Respuesta × Sistema :=
  if a.entradas = 0 then (.numero noHayDescriptores, a)
  else if h : a.arbol.Vacant cs ∧ Nombrable 17 cs then
    (.posicion, { a with arbol := a.arbol.insert cs nodo h.1, entradas := a.entradas - 1 })
  else (.numero Resultado.pathInvalido.toInt, a)

/-- The file at `cs` comes to hold other bytes, if the free blocks are enough for `hasta` of them. -/
noncomputable def reescribir (hasta : ℕ) (nuevos : List UInt8 → List UInt8) (r : ℤ) :
    Respuesta × Sistema :=
  match a.arbol.node cs with
  | some (.file bytes) =>
    if hasta ≤ bytes.length + a.bloques * 64 then
      (.numero r, { a with
        arbol := a.arbol.write cs (nuevos bytes)
        bloques := a.bloques + bloquesPara bytes.length - bloquesPara (nuevos bytes).length })
    else (.numero noHayEspacio, a)
  | _ => (.numero archivoInexistente, a)

noncomputable def editar (pos : ℕ) (datos : List UInt8) : Respuesta × Sistema :=
  a.reescribir cs (pos + datos.length) (overwrite · pos datos) datos.length

noncomputable def truncar (n : ℕ) : Respuesta × Sistema :=
  a.reescribir cs n (fun bytes => bytes.take n ++ List.replicate (n - bytes.length) 0) 1

noncomputable def renombrar (hasta : List (List UInt8)) : Respuesta × Sistema :=
  if h : a.arbol.Movable cs hasta then (.numero 1, { a with arbol := a.arbol.move cs hasta h })
  else (.numero archivoInexistente, a)

/-- Something that is not the root. -/
def Hay : Prop := cs ≠ [] ∧ (a.arbol.node cs).isSome = true

noncomputable def eliminar : Respuesta × Sistema :=
  if h : a.Hay cs then
    if hc : a.arbol.Childless cs then
      (.numero 1, {
        arbol := a.arbol.remove cs h.1 hc
        bloques := a.bloques + bloquesDeNodo (a.arbol.node cs)
        entradas := a.entradas + 1 })
    else (.numero directorioNoVacio, a)
  else (.numero archivoInexistente, a)

/-- The tree does not say when a file was changed. -/
noncomputable def fechar : Respuesta × Sistema :=
  if a.Hay cs then (.numero 1, a) else (.numero (-1), a)

noncomputable def hacer : Operacion → Respuesta × Sistema
  | .crearArchivo _ _ path => a.crear (componentes path) (.file [])
  | .crearDirectorio _ _ path => a.crear (componentes path) .dir
  | .editar _ path inicioBytes _ archivo => a.editar (componentes path) inicioBytes.toNat archivo
  | .truncar _ path bytesATruncar => a.truncar (componentes path) bytesATruncar.toNat
  | .renombrar _ viejoNombre nuevoNombre =>
    a.renombrar (componentes viejoNombre) (componentes nuevoNombre)
  | .eliminar _ path _ => a.eliminar (componentes path)
  | .utimens _ path _ => a.fechar (componentes path)

/-- What a call does to the system, and the number it gives. -/
def PasoDelSistema (a : Sistema) (e : Operacion × ℤ) (a' : Sistema) : Prop :=
  (a.hacer e.1).1.Es e.2 ∧ a' = (a.hacer e.1).2

/-- What is there, if anything, is a file, and its bytes are as `P` says. -/
def SiArchivo (P : List UInt8 → Prop) : Prop :=
  a.arbol.node cs ≠ some .dir ∧ ∀ bytes, a.arbol.node cs = some (.file bytes) → P bytes

end Sistema

/-- The calls that are answered as they should. A file made longer finds room to have its new bytes
set to zero after it has taken its blocks, and nothing goes below itself. What a call frees of its
caller (`liberaElPath`) is no part of the disk. -/
def Operacion.EnRegla (a : Sistema) : Operacion → Prop
  | .crearArchivo _ _ _ => True
  | .crearDirectorio _ _ path => Nombrable 17 (componentes path)
  | .editar _ path inicioBytes bytesAEscribir archivo =>
    archivo ≠ [] ∧ (archivo.length : ℤ) = bytesAEscribir ∧ bytesAEscribir < 2147483648 ∧
      0 ≤ inicioBytes ∧ a.SiArchivo (componentes path) fun bytes => inicioBytes ≤ bytes.length
  | .truncar _ path bytesATruncar =>
    0 ≤ bytesATruncar ∧ bytesATruncar < 2147483648 ∧ a.SiArchivo (componentes path) fun bytes =>
      bytesATruncar ≤ bytes.length ∨ bytes.length + a.bloques * 64 < bytesATruncar ∨
        bytesATruncar.toNat ≤ bytes.length +
          (bloquesPara bytes.length + a.bloques - bloquesPara bytesATruncar.toNat) * 64
  | .renombrar _ viejoNombre nuevoNombre =>
    viejoNombre.1 ≠ [] ∧ Nombrable 16 (componentes nuevoNombre) ∧
      (componentes viejoNombre <+: componentes nuevoNombre →
        componentes viejoNombre = componentes nuevoNombre)
  | .eliminar _ path hard => path.1 ≠ [] ∧ hard = 0
  | .utimens _ path _ => path.1 ≠ []

/-- The call can be made, and this is what it leaves. -/
def Sistema.Sigue (a : Sistema) (op : Operacion) (a' : Sistema) : Prop :=
  op.EnRegla a ∧ op.Legible ∧ a' = (a.hacer op).2

namespace Sistema

variable {a : Sistema} {cs : List (List UInt8)} {nodo : Node (List UInt8)}

theorem crear_lleno (h : a.entradas = 0) : a.crear cs nodo = (.numero noHayDescriptores, a) :=
  if_pos h

theorem crear_no (h : a.entradas ≠ 0) (hno : ¬ (a.arbol.Vacant cs ∧ Nombrable 17 cs)) :
    a.crear cs nodo = (.numero 2, a) := by
  rw [crear, if_neg h, dif_neg hno]
  rfl

theorem crear_si (h : a.entradas ≠ 0) (hv : a.arbol.Vacant cs) (hn : Nombrable 17 cs) :
    a.crear cs nodo = (.posicion, { a with
      arbol := a.arbol.insert cs nodo hv
      entradas := a.entradas - 1 }) := by
  rw [crear, if_neg h, dif_pos ⟨hv, hn⟩]

section Reescribir
variable {hasta : ℕ} {nuevos : List UInt8 → List UInt8} {r : ℤ} {bytes : List UInt8}

theorem reescribir_no (h : ∀ bytes, a.arbol.node cs ≠ some (.file bytes)) :
    a.reescribir cs hasta nuevos r = (.numero archivoInexistente, a) := by
  unfold reescribir
  split
  · next hbytes => exact absurd hbytes (h _)
  · rfl

theorem reescribir_lleno (h : a.arbol.node cs = some (.file bytes))
    (hno : bytes.length + a.bloques * 64 < hasta) :
    a.reescribir cs hasta nuevos r = (.numero noHayEspacio, a) := by
  unfold reescribir
  rw [h]
  exact if_neg (Nat.not_le.mpr hno)

theorem reescribir_si (h : a.arbol.node cs = some (.file bytes))
    (hsi : hasta ≤ bytes.length + a.bloques * 64) :
    a.reescribir cs hasta nuevos r = (.numero r, { a with
      arbol := a.arbol.write cs (nuevos bytes)
      bloques := a.bloques + bloquesPara bytes.length - bloquesPara (nuevos bytes).length }) := by
  unfold reescribir
  rw [h]
  exact if_pos hsi

end Reescribir

theorem renombrar_si {hasta : List (List UInt8)} (h : a.arbol.Movable cs hasta) :
    a.renombrar cs hasta = (.numero 1, { a with arbol := a.arbol.move cs hasta h }) := dif_pos h

theorem eliminar_si (h : a.Hay cs) (hc : a.arbol.Childless cs) :
    a.eliminar cs = (.numero 1, {
      arbol := a.arbol.remove cs h.1 hc
      bloques := a.bloques + bloquesDeNodo (a.arbol.node cs)
      entradas := a.entradas + 1 }) := by
  rw [eliminar, dif_pos h, dif_pos hc]

end Sistema

end TpSo.Osada
