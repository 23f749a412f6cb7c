import TpSo.Base.Run
import TpSo.Osada.Efectos
import TpSo.Osada.Formateo

/-!
# Sequences of operations keep the disk well formed

One operation at a time. An operation that never returns leaves the disk as it had it, and
the sequence may go on: the theorem covers what a server that was started again would find.
-/

namespace TpSo.Osada

open Function (update)

/-- A call of one of the operations, with the clock and the fresh memory it runs with. -/
inductive Operacion where
  | crearArchivo (hora : ℕ) (basura : OsadaFile) (path : Cadena)
  | crearDirectorio (hora : ℕ) (basura : OsadaFile) (path : Cadena)
  | editar (basura : OsadaFile) (path : Cadena) (inicioBytes bytesAEscribir : ℤ)
      (archivo : List UInt8)
  | truncar (basura : OsadaFile) (path : Cadena) (bytesATruncar : ℤ)
  | renombrar (basura : OsadaFile) (viejoNombre nuevoNombre : Cadena)
  | eliminar (basura : OsadaFile) (path : Cadena) (hard : ℕ)
  | utimens (basura : OsadaFile) (path : Cadena) (segundos : ℤ)

namespace Operacion

def ejecutar : Operacion → Op Pokedex ℤ
  | crearArchivo hora basura path => osadaCrearArchivo hora basura path
  | crearDirectorio hora basura path => osadaCrearDirectorio hora basura path
  | editar basura path inicioBytes bytesAEscribir archivo =>
    osadaEditarArchivo basura path inicioBytes bytesAEscribir archivo
  | truncar basura path bytesATruncar => osadaTruncarArchivo basura path bytesATruncar
  | renombrar basura viejoNombre nuevoNombre =>
    osadaRenombrarArchivo basura viejoNombre nuevoNombre
  | eliminar basura path hard => osadaEliminarArchivo basura path hard
  | utimens basura path segundos => osadaUtimens basura path segundos

/-- The path is that of a file, if of anything, and its descriptor is as `P` says. -/
def EsArchivo (d : Disco) (basura : OsadaFile) (path : Cadena) (P : OsadaFile → Prop) : Prop :=
  ∀ l e, leerPath d basura path = some l → l.resultado = .archivoExiste →
    l.descriptor = some e → e.state = .regular ∧ P e

/-- The calls of the sequences. -/
def Permitida (d : Disco) : Operacion → Prop
  | crearArchivo _ _ _ => True
  | crearDirectorio _ _ path =>
    ∀ nombre, obtenerNombreDeArchivoDePath path = some nombre → nombre.length ≤ 17
  | editar basura path inicioBytes bytesAEscribir _ =>
    1 ≤ bytesAEscribir ∧ bytesAEscribir < 2147483648 ∧ 0 ≤ inicioBytes ∧
      EsArchivo d basura path fun e => inicioBytes ≤ e.fileSize
  | truncar basura path bytesATruncar =>
    0 ≤ bytesATruncar ∧ bytesATruncar < 2147483648 ∧ EsArchivo d basura path fun _ => True
  | renombrar _ viejoNombre nuevoNombre => viejoNombre.1 ≠ [] ∧
    ∀ nombre, obtenerNombreDeArchivoDePath nuevoNombre = some nombre → nombre.length ≤ 16
  | eliminar _ path _ => path.1 ≠ []
  | utimens _ path _ => path.1 ≠ []

/-- The paths of the call can be taken apart, and what is to be created has a name. -/
def Legible : Operacion → Prop
  | crearDirectorio _ _ path => path.Legible ∧ (obtenerNombreDeArchivoDePath path).isSome
  | renombrar _ viejoNombre nuevoNombre => viejoNombre.Legible ∧ nuevoNombre.Legible
  | crearArchivo _ _ path | editar _ path _ _ _ | truncar _ path _ | eliminar _ path _
  | utimens _ path _ => path.Legible

end Operacion

/-- What holds between one operation and the next. -/
structure Sano (s : Pokedex) : Prop where
  bienFormado : BienFormado s.disco
  sinPendientes : SinPendientes s

/-- The operation leaves the server sound, however it ends, and returns if its paths are
legible. -/
def Cumple (x : Op Pokedex ℤ) (legible : Prop) (s : Pokedex) : Prop :=
  Sano (x s).2 ∧ (legible → (x s).1.isSome = true)

section Cumple
variable {s : Pokedex} {basura : OsadaFile} {path : Cadena} {legible : Prop}

theorem Cumple.of_returns {x : Op Pokedex ℤ} (h : Op.Returns x s fun _ s' => Sano s') :
    Cumple x legible s := by
  obtain ⟨r, s', hrun, hs'⟩ := h
  rw [Cumple, hrun]
  exact ⟨hs', fun _ => rfl⟩

theorem Cumple.bind {x : Op Pokedex ℤ} {f : ℤ → Op Pokedex ℤ} (hx : Cumple x legible s)
    (hf : ∀ r s', Sano s' → Cumple (f r) legible s') : Cumple (x >>= f) legible s := by
  obtain ⟨hsano, hret⟩ := hx
  rcases he : x s with ⟨_ | r, s'⟩
  · rw [he] at hsano hret
    rw [Cumple, Op.bind_none he]
    exact ⟨hsano, hret⟩
  · rw [he] at hsano
    rw [Cumple, Op.bind_some he]
    exact hf r s' hsano

theorem cumple_leer {f : Lectura → Op Pokedex ℤ} (hs : Sano s)
    (hleg : legible → path.Legible)
    (hf : ∀ l, leerPath s.disco basura path = some l → Cumple (f l) legible s) :
    Cumple (leer basura path >>= f) legible s := by
  rcases hl : leerPath s.disco basura path with _ | l
  · rw [Cumple, leer_bind_none hl]
    refine ⟨hs, fun h => ?_⟩
    have hsome := (leerPath_isSome s.disco basura path).mpr (hleg h)
    rw [hl] at hsome
    exact absurd hsome (by simp)
  · rw [Cumple, leer_bind_some hl]
    exact hf l hl

/-- A file takes no more than the blocks that are not free, and a disk is small. -/
theorem Descriptores.tamanio {cad : ℕ → List ℕ} (hd : Descriptores s.disco cad)
    (h : Ocupacion s.disco s.disco.raiz cad) {p : ℕ} (hp : p < 2048)
    (hreg : (s.disco.archivos p).state = .regular) :
    (s.disco.archivos p).fileSize ≤ 64 * (cad p).length ∧
      ((cad p).length + libres s.disco) * 64 < 2147483648 := by
  have hle := hd.alcanzan p hp hreg
  have hsum := h.suma
  have hch := h.chico
  have hocup := h.length_add_libres_le p
  unfold bloquesPara at hle
  constructor <;> omega

/-- The size a write leaves needs no more blocks than it went through or were there. -/
theorem bloquesPara_tamanioEditado {size L : ℕ} {n pos : ℤ} (hn : 1 ≤ n ∧ n < 2147483648)
    (hpos : 0 ≤ pos) (hle : pos ≤ size) (hL : size ≤ 64 * L) (hchico : size < 2147483648) :
    bloquesPara (tamanioEditado size pos n) ≤ max L (max 1 (rondas n pos)) := by
  have hrondas : rondas n pos = max 1 ((n + pos + 63) / 64).toNat := rondas_of_pos (by omega)
  have hnuevo : (u32 (n + pos) : ℤ) = n + pos := u32_of_lt (by omega) (by omega)
  unfold tamanioEditado bloquesPara
  split <;> omega

theorem cumple_confirmarEditar {l : Lectura} {n pos : ℤ} {archivo : List UInt8} (hs : Sano s)
    (hl : leerPath s.disco basura path = some l) (hn : 1 ≤ n ∧ n < 2147483648) (hpos : 0 ≤ pos)
    (hreg : Operacion.EsArchivo s.disco basura path fun e => pos ≤ e.fileSize) :
    Op.Returns (confirmarEditar l pos n archivo) s fun _ s' => Sano s' := by
  by_cases hr : l.resultado = .archivoExiste
  · obtain ⟨e, hd, hen, hraiz⟩ := leerPath_existe hl hr
    obtain ⟨hestado, hle⟩ := hreg l e hl hr hd
    rcases hen with ⟨_, rfl⟩ | ⟨hp, rfl, _⟩
    · exact absurd hestado (by simp [descriptorRaiz])
    obtain ⟨cad, hocu, hdes⟩ := hs.bienFormado.ocupacion
    obtain ⟨htam, hchico⟩ := hdes.tamanio hocu hp hestado
    have hlibres := hocu.obtenerBloquesLibres_eq
    set size := (s.disco.archivos l.posicion).fileSize with hsize
    set L := (cad l.posicion).length with hL
    have hun : (u32 n : ℤ) = n := u32_of_lt (by omega) (by omega)
    have hspace : (u32 (size - pos + obtenerBloquesLibres s.disco * 64) : ℤ) =
        size - pos + libres s.disco * 64 := by
      rw [hlibres]
      exact u32_of_lt (by omega) (by omega)
    rcases Nat.lt_or_ge (u32 (size - pos + obtenerBloquesLibres s.disco * 64)) (u32 n)
      with hcheck | hcheck
    · exact ⟨_, s, confirmarEditar_rechazado hr hd hp hcheck, hs⟩
    · have hrondas : rondas n pos = max 1 ((n + pos + 63) / 64).toNat := rondas_of_pos (by omega)
      have hneed : max 1 (rondas n pos) ≤ L + libres s.disco := by omega
      have hlen : ((libresEnOrden s.disco).take (max 1 (rondas n pos) - L)).length =
          max 1 (rondas n pos) - L := by
        rw [List.length_take, length_libresEnOrden]
        omega
      obtain ⟨r, s', hrun, _, e, he, hedito, _⟩ := returns_confirmarEditar hr hd hp hocu
        (raiz_regular hp hestado) hcheck hneed rfl
        fun _ => enSuLugar_primera hocu hpos archivo rfl
      have hestado' : e.state = .regular := by rw [he]; exact hestado
      have hraiz : e.raiz = e.firstBlock := if_pos hestado'
      rw [← hraiz] at hedito
      refine ⟨r, s', hrun, hedito.bienFormado hp hdes (fun _ => ?_) (fun hdir => ?_),
        hedito.sinPendientes hs.sinPendientes⟩
      · have hcabe : bloquesPara (tamanioEditado size pos n) ≤ max L (max 1 (rondas n pos)) :=
          bloquesPara_tamanioEditado hn hpos hle htam (by omega)
        rw [he, List.length_append, hlen, ← hL]
        exact hcabe.trans (by omega)
      · rw [hestado'] at hdir
        exact absurd hdir (by simp)
  · exact ⟨_, s, confirmarEditar_otro hr, hs⟩

theorem cumple_confirmarTruncar {l : Lectura} {n : ℤ} (hs : Sano s)
    (hl : leerPath s.disco basura path = some l) (hn : 0 ≤ n ∧ n < 2147483648)
    (hreg : Operacion.EsArchivo s.disco basura path fun _ => True) :
    Op.Returns (confirmarTruncar l n) s fun _ s' => Sano s' := by
  by_cases hr : l.resultado = .archivoExiste
  · obtain ⟨e, hd, hen, hraiz⟩ := leerPath_existe hl hr
    obtain ⟨hestado, _⟩ := hreg l e hl hr hd
    rcases hen with ⟨_, rfl⟩ | ⟨hp, rfl, _⟩
    · exact absurd hestado (by simp [descriptorRaiz])
    obtain ⟨cad, hocu, hdes⟩ := hs.bienFormado.ocupacion
    obtain ⟨htam, hchico⟩ := hdes.tamanio hocu hp hestado
    have hlibres := hocu.obtenerBloquesLibres_eq
    set size := (s.disco.archivos l.posicion).fileSize with hsize
    set L := (cad l.posicion).length with hL
    have hun : (u32 n : ℤ) = n := u32_of_lt (by omega) (by omega)
    have hspace : (u32 (size + obtenerBloquesLibres s.disco * 64) : ℤ) =
        size + libres s.disco * 64 := by
      rw [hlibres]
      exact u32_of_lt (by omega) (by omega)
    rcases Nat.lt_or_ge (u32 (size + obtenerBloquesLibres s.disco * 64)) (u32 n)
      with hcheck | hcheck
    · exact ⟨_, s, confirmarTruncar_rechazado hr hd hp hcheck, hs⟩
    · have hinicio : i32 (u32 n) = n := by
        rw [hun]
        exact i32_of_range (by omega) hn.2
      have hcabe : bloquesPara n.toNat ≤ L + libres s.disco := by
        unfold bloquesPara
        omega
      have hneed : bloquesDeTruncado n ≤ L + libres s.disco := by
        unfold bloquesDeTruncado
        split <;> omega
      have hvacia : cad 2048 = [] := hocu.cad_eq_nil (by omega)
      obtain ⟨r, s', hrun, _, e, he, hedito, _⟩ := returns_confirmarTruncar hr hd hp hocu
        (raiz_regular hp hestado) hcheck hinicio (.inr hn) hneed hvacia (by omega) rfl
      have hestado' : e.state = .regular := by rw [he]; exact hestado
      have hraiz : e.raiz = e.firstBlock := if_pos hestado'
      rw [← hraiz] at hedito
      refine ⟨r, s', hrun, hedito.bienFormado hp hdes (fun _ => ?_) (fun hdir => ?_),
        hedito.sinPendientes hs.sinPendientes⟩
      · have hsize' : e.fileSize = n.toNat := by
          rw [he]
          simp only
          omega
        rw [hsize', List.length_take, List.length_append, length_libresEnOrden]
        exact le_min (le_refl _) hcabe
      · rw [hestado'] at hdir
        exact absurd hdir (by simp)
  · exact ⟨_, s, confirmarTruncar_otro hr, hs⟩

/-- A descriptor that says of its blocks what the one before it said. -/
theorem sano_descriptor {p : ℕ} {e : OsadaFile} (hs : Sano s) (hp : p < 2048)
    (he : e = { s.disco.archivos p with
      fname := e.fname, parentDirectory := e.parentDirectory, lastmod := e.lastmod }) :
    Sano (s.escribir (.descriptor p e)) := by
  obtain ⟨cad, hocu, hdes⟩ := hs.bienFormado.ocupacion
  have hestado : e.state = (s.disco.archivos p).state := by rw [he]
  have hsize : e.fileSize = (s.disco.archivos p).fileSize := by rw [he]
  have hblock : e.firstBlock = (s.disco.archivos p).firstBlock := by rw [he]
  have hraiz : s.disco.raiz p = e.raiz := by simp [Disco.raiz, OsadaFile.raiz, hp, hestado, hblock]
  have hedito := edito_descriptor hocu p e
  rw [hraiz] at hedito
  refine ⟨hedito.bienFormado hp hdes ?_ ?_, hs.sinPendientes⟩
  · rw [hestado, hsize]
    exact hdes.alcanzan p hp
  · rw [hestado, hblock]
    exact hdes.directorios p hp

theorem leerPath_posicion {l : Lectura} {e : OsadaFile} (hl : leerPath s.disco basura path = some l)
    (hr : l.resultado = .archivoExiste) (hd : l.descriptor = some e) (hbarra : path.1 ≠ [barra])
    (hvacio : path.1 ≠ []) : l.posicion < 2048 ∧ e = s.disco.archivos l.posicion := by
  obtain ⟨hp, hd', _⟩ := leerPath_entrada hl hr fun h => h.elim hbarra hvacio
  rw [hd] at hd'
  exact ⟨hp, Option.some.inj hd'⟩

theorem cumple_confirmarRenombrar {viejo nuevo : Lectura} {viejoNombre nuevoNombre : Cadena}
    (hs : Sano s) (hl : leerPath s.disco basura viejoNombre = some viejo)
    (hvacio : viejoNombre.1 ≠ [])
    (hnombre : ∀ nombre, obtenerNombreDeArchivoDePath nuevoNombre = some nombre →
      nombre.length ≤ 16) :
    Op.Returns (confirmarRenombrar viejoNombre nuevoNombre viejo nuevo) s
      fun _ s' => Sano s' := by
  rcases confirmarRenombrar_cases viejoNombre nuevoNombre viejo nuevo s with
    hrun | ⟨e, nombre, hr, hd, _, hn, hbarra, hrun⟩
  · exact ⟨_, s, hrun, hs⟩
  · obtain ⟨hp, rfl⟩ := leerPath_posicion hl hr hd hbarra hvacio
    have hlargo := hnombre nombre hn
    -- a name this short stays within its field
    have hcabe : ∀ k, 17 ≤ k → (nombre ++ [0]).drop k = [] := fun k hk =>
      List.drop_eq_nil_of_le (by rw [List.length_append, List.length_singleton]; omega)
    refine ⟨_, _, hrun, sano_descriptor hs hp ?_⟩
    simp [strcpyDescriptor, hcabe, pisar]

theorem cumple_confirmarUtimens {l : Lectura} {segundos : ℤ} (hs : Sano s)
    (hl : leerPath s.disco basura path = some l) (hvacio : path.1 ≠ []) :
    Op.Returns (confirmarUtimens path l segundos) s fun _ s' => Sano s' := by
  rcases confirmarUtimens_cases path l segundos s with hrun | ⟨e, hr, hd, hbarra, hrun⟩
  · exact ⟨_, s, hrun, hs⟩
  · obtain ⟨hp, rfl⟩ := leerPath_posicion hl hr hd hbarra hvacio
    exact ⟨_, _, hrun, sano_descriptor hs hp rfl⟩

theorem cumple_confirmarEliminar {l : Lectura} {archivos : ℕ → OsadaFile} {hard : ℕ}
    (hs : Sano s) (hl : leerPath s.disco basura path = some l) (hvacio : path.1 ≠ []) :
    Op.Returns (confirmarEliminar archivos path l hard) s fun _ s' => Sano s' := by
  rcases confirmarEliminar_cases archivos path l hard s with hrun | ⟨e, hr, hd, hbarra, hrun⟩
  · exact ⟨_, s, hrun, hs⟩
  · obtain ⟨hp, rfl⟩ := leerPath_posicion hl hr hd hbarra hvacio
    rw [hrun]
    by_cases hhijos : hard = 0 ∧ tieneHijos archivos l.posicion = true
    · exact ⟨_, s, eliminarArchivoInterna_hijos hhijos, hs⟩
    · obtain ⟨cad, hocu, hdes⟩ := hs.bienFormado.ocupacion
      have hraiz : s.disco.raiz l.posicion = (s.disco.archivos l.posicion).raiz := by
        simp [Disco.raiz, OsadaFile.raiz, hp]
      obtain ⟨r, s', hrun', _, hedito⟩ := returns_eliminarArchivoInterna hocu hraiz hhijos
      refine ⟨r, s', hrun', ?_, hedito.sinPendientes hs.sinPendientes⟩
      exact hedito.bienFormado hp hdes (fun hreg => by simp at hreg) fun hdir => by simp at hdir

theorem cumple_crearEntrada {estructura : OsadaFileState} (hora : ℕ) (largoMaximo : Option ℕ)
    (hs : Sano s) (hlibre : obtenerCantidadDeArchivos s.disco < 2048)
    (hvivo : estructura ≠ .deleted) (hleg : legible → path.Legible) :
    Cumple (crearEntrada hora basura path largoMaximo estructura) legible s := by
  refine cumple_leer hs hleg fun l hl => ?_
  apply Cumple.of_returns
  have hcrear := crearEntrada_apply hora largoMaximo hs.sinPendientes hlibre hvivo hl
  rw [crearEntrada, leer_bind_some hl] at hcrear
  rcases hcrear with hrun | ⟨nombre, i, _, _, _, hi, hdel, hrun⟩
  · exact ⟨_, s, hrun, hs⟩
  · refine ⟨_, _, hrun, ?_, hs.sinPendientes⟩
    obtain ⟨cad, hocu, hdes⟩ := hs.bienFormado.ocupacion
    set e := descriptorNuevo hora basura nombre l.posicion estructura
    have hraiz : s.disco.raiz i = e.raiz := by
      rw [raiz_otro (by simp [hdel])]
      unfold OsadaFile.raiz
      split <;> rfl
    have hedito := edito_descriptor hocu i e
    rw [hraiz] at hedito
    have hsize : bloquesPara e.fileSize = 0 := show bloquesPara 0 = 0 by decide
    exact hedito.bienFormado hi hdes (fun _ => hsize ▸ Nat.zero_le _) fun _ => rfl

end Cumple

theorem cumple_ejecutar {s : Pokedex} (hs : Sano s) (op : Operacion) (hop : op.Permitida s.disco) :
    Cumple op.ejecutar op.Legible s := by
  cases op with
  | crearArchivo hora basura path =>
    rw [Operacion.ejecutar, osadaCrearArchivo, Cumple, Op.bind_some (Op.get_apply _ _)]
    split
    · exact ⟨hs, fun _ => rfl⟩
    · next hlibre =>
      exact cumple_crearEntrada _ _ hs (Nat.lt_of_not_le hlibre) (by simp) id
  | crearDirectorio hora basura path =>
    rw [Operacion.ejecutar, osadaCrearDirectorio, Cumple, Op.bind_some (Op.get_apply _ _)]
    split
    · exact ⟨hs, fun _ => rfl⟩
    · next hlibre =>
      refine Cumple.bind (cumple_crearEntrada _ _ hs (Nat.lt_of_not_le hlibre) (by simp) And.left)
        fun posicion s' hs' => ?_
      -- an empty path ends the process once its name is freed
      split
      · exact ⟨hs', fun _ => rfl⟩
      · next hnombre => exact ⟨hs', fun hleg => absurd hleg.2 hnombre⟩
  | editar basura path inicioBytes bytesAEscribir archivo =>
    obtain ⟨hn, hmax, hpos, hreg⟩ := hop
    exact cumple_leer hs id fun l hl =>
      .of_returns (cumple_confirmarEditar hs hl ⟨hn, hmax⟩ hpos hreg)
  | truncar basura path bytesATruncar =>
    obtain ⟨h0, hmax, hreg⟩ := hop
    exact cumple_leer hs id fun l hl =>
      .of_returns (cumple_confirmarTruncar hs hl ⟨h0, hmax⟩ hreg)
  | renombrar basura viejoNombre nuevoNombre =>
    refine cumple_leer hs And.left fun viejo hl => cumple_leer hs And.right fun nuevo _ => ?_
    exact .of_returns (cumple_confirmarRenombrar hs hl hop.1 hop.2)
  | eliminar basura path hard =>
    rw [Operacion.ejecutar, osadaEliminarArchivo, Cumple, Op.bind_some (Op.get_apply _ _)]
    exact cumple_leer hs id fun l hl => .of_returns (cumple_confirmarEliminar hs hl hop)
  | utimens basura path segundos =>
    exact cumple_leer hs id fun l hl => .of_returns (cumple_confirmarUtimens hs hl hop)

/-- A step of a sequence: a permitted call, and the state it leaves. -/
def Paso (s : Pokedex) (op : Operacion) (s' : Pokedex) : Prop :=
  op.Permitida s.disco ∧ (op.ejecutar s).2 = s'

/-- Every sequence of operations keeps the disk well formed, and after it every operation
whose paths are legible returns. -/
theorem bienFormado_corrida {s s' : Pokedex} {ops : List Operacion} (h : Run Paso s ops s')
    (hd : BienFormado s.disco) (hs : SinPendientes s) :
    BienFormado s'.disco ∧ SinPendientes s' ∧ ∀ op : Operacion, op.Permitida s'.disco →
      op.Legible → ∃ r, (op.ejecutar s').1 = some r := by
  have hsano : Sano s' := h.invariant (fun s op s' hs hpaso => by
    obtain ⟨hop, rfl⟩ := hpaso
    exact (cumple_ejecutar hs op hop).1) ⟨hd, hs⟩
  refine ⟨hsano.bienFormado, hsano.sinPendientes, fun op hop hleg => ?_⟩
  exact Option.isSome_iff_exists.mp ((cumple_ejecutar hsano op hop).2 hleg)

theorem esArchivo_of_leer {d : Disco} {basura : OsadaFile} {path : Cadena} {n : ℕ}
    {P : OsadaFile → Prop} (h : (leerPath d basura path).map (fun l => l.descriptor.map fun e =>
      (e.state, e.fileSize)) = some (some (.regular, n))) (hP : ∀ e, e.fileSize = n → P e) :
    Operacion.EsArchivo d basura path P := by
  intro l e hl _ he
  rw [hl, Option.map_some, he, Option.map_some] at h
  simp only [Option.some.injEq, Prod.mk.injEq] at h
  exact ⟨h.1, hP e h.2⟩

/-- A file of 100 bytes grows by a write at its end, grows more by a truncation, shrinks and goes. -/
theorem bienFormado_corrida_chica : ∃ s', Run Paso (.inicial (discoConArchivo headerChico
      headerChico_regiones 2 100)) [.editar .borrado rutaA 100 60 (List.replicate 60 7),
        .truncar .borrado rutaA 300, .truncar .borrado rutaA 10, .eliminar .borrado rutaA 0] s' ∧
      BienFormado s'.disco := by
  obtain ⟨s, hs⟩ : ∃ s, Pokedex.inicial (discoConArchivo headerChico headerChico_regiones 2 100) =
    s := ⟨_, rfl⟩
  obtain ⟨s₁, h₁⟩ : ∃ s₁, ((Operacion.editar .borrado rutaA 100 60 (List.replicate 60 7)).ejecutar
    s).2 = s₁ := ⟨_, rfl⟩
  obtain ⟨s₂, h₂⟩ : ∃ s₂, ((Operacion.truncar .borrado rutaA 300).ejecutar s₁).2 = s₂ := ⟨_, rfl⟩
  have hlee : (leerPath s.disco .borrado rutaA).map (fun l => l.descriptor.map fun e =>
      (e.state, e.fileSize)) = some (some (.regular, 100)) := by
    rw [← hs]
    decide +kernel
  have hlee₁ : (leerPath s₁.disco .borrado rutaA).map (fun l => l.descriptor.map fun e =>
      (e.state, e.fileSize)) = some (some (.regular, 160)) := by
    rw [← h₁, ← hs]
    decide +kernel
  have hlee₂ : (leerPath s₂.disco .borrado rutaA).map (fun l => l.descriptor.map fun e =>
      (e.state, e.fileSize)) = some (some (.regular, 300)) := by
    rw [← h₂, ← h₁, ← hs]
    decide +kernel
  have hescribe : (Operacion.editar .borrado rutaA 100 60 (List.replicate 60 7)).Permitida s.disco :=
    ⟨by decide, by decide, by decide, esArchivo_of_leer hlee fun e he => by rw [he]; decide⟩
  have hcrece : (Operacion.truncar .borrado rutaA 300).Permitida s₁.disco :=
    ⟨by decide, by decide, esArchivo_of_leer hlee₁ fun _ _ => trivial⟩
  have hcorta : (Operacion.truncar .borrado rutaA 10).Permitida s₂.disco :=
    ⟨by decide, by decide, esArchivo_of_leer hlee₂ fun _ _ => trivial⟩
  have hruta : rutaA.1 ≠ [] := by decide
  have hrun : Run Paso s [.editar .borrado rutaA 100 60 (List.replicate 60 7),
      .truncar .borrado rutaA 300, .truncar .borrado rutaA 10, .eliminar .borrado rutaA 0] _ :=
    .cons ⟨hescribe, h₁⟩ (.cons ⟨hcrece, h₂⟩ (.cons ⟨hcorta, rfl⟩ (.cons ⟨hruta, rfl⟩ (.nil _))))
  rw [hs]
  refine ⟨_, hrun, ?_⟩
  rw [← hs] at hrun
  refine (bienFormado_corrida hrun ?_ (sinPendientes_inicial _)).1
  exact bienFormado_conArchivo (by decide) (by decide) (by decide) (by decide) (by decide)

end TpSo.Osada
