import TpSo.Base.Optimistic
import TpSo.Osada.Aislamiento

/-!
# Requests of several clients on files that are there

Each is two steps: `leerPath`, which copies the descriptor and takes no lock that outlives it,
and the commit, which writes the copy back. A request whose copy is no longer what the path
reads as puts back what another one changed in between.
-/

namespace TpSo.Osada

open Function (update)

/-- The requests on files that are there, with the memory they are given for the descriptor of
the root. -/
inductive Modificacion where
  | escribirArchivo (basura : OsadaFile) (path : Cadena) (offset : ℕ) (datosAEscribir : List UInt8)
  | truncarArchivo (basura : OsadaFile) (path : Cadena) (offset : ℕ)
  | renombrarArchivo (basura : OsadaFile) (viejoNombre nuevoNombre : Cadena)
  | eliminarArchivo (basura : OsadaFile) (path : Cadena)
  | utimens (basura : OsadaFile) (path : Cadena) (segundos : ℤ)

/-- What a request takes along from its first step; a deletion copies the whole table. -/
structure Copia where
  archivos : ℕ → OsadaFile
  primera : Option Lectura
  segunda : Option Lectura

/-- Without the field that `osada_utimens` writes. -/
def Lectura.sinLastmod (l : Lectura) : Lectura :=
  { l with descriptor := l.descriptor.map fun e => { e with lastmod := 0 } }

/-- Goes on with what was read; where `leerPath` does not come back, nothing follows. -/
def conLectura (l : Option Lectura) (f : Lectura → Op Pokedex ℤ) : Op Pokedex ℤ :=
  match l with
  | some l => f l
  | none => Op.abort

namespace Modificacion

/-- The request as the server takes it off the socket. -/
def pedido : Modificacion → Pedido
  | escribirArchivo _ path offset datos => .escribirArchivo path offset datos
  | truncarArchivo _ path offset => .truncarArchivo path offset
  | renombrarArchivo _ viejoNombre nuevoNombre => .renombrarArchivo viejoNombre nuevoNombre
  | eliminarArchivo _ path => .eliminarArchivo path
  | utimens _ path segundos => .utimens path segundos

def basura : Modificacion → OsadaFile
  | escribirArchivo basura _ _ _ | truncarArchivo basura _ _ | renombrarArchivo basura _ _
  | eliminarArchivo basura _ | utimens basura _ _ => basura

def ruta (m : Modificacion) : Cadena := m.pedido.ruta

def leer (m : Modificacion) (d : Disco) : Copia where
  archivos := d.archivos
  primera := leerPath d m.basura m.ruta
  segunda := match m with
    | renombrarArchivo basura _ nuevoNombre => leerPath d basura nuevoNombre
    | _ => none

def confirmar (k : Copia) : Modificacion → Op Pokedex ℤ
  | escribirArchivo _ _ offset datos =>
    if datos = [] then pure 0
    else conLectura k.primera fun l => confirmarEditar l (i32 offset) (i32 datos.length) datos
  | truncarArchivo _ _ offset => conLectura k.primera fun l => confirmarTruncar l (i32 offset)
  | renombrarArchivo _ viejoNombre nuevoNombre => conLectura k.primera fun viejo =>
    conLectura k.segunda fun nuevo => confirmarRenombrar viejoNombre nuevoNombre viejo nuevo
  | eliminarArchivo _ path => conLectura k.primera fun l => confirmarEliminar k.archivos path l 0
  | utimens _ path segundos => conLectura k.primera fun l => confirmarUtimens path l segundos

/-- The copy `k` turns the request down before it writes anything. -/
def Rechaza (d : Disco) (k : Copia) (m : Modificacion) : Prop :=
  ∀ l e, k.primera = some l → l.resultado = .archivoExiste → l.descriptor = some e →
    match m with
    | escribirArchivo _ _ offset datos => datos ≠ [] →
      u32 (e.fileSize - i32 offset + obtenerBloquesLibres d * 64) < u32 (i32 datos.length)
    | truncarArchivo _ _ offset =>
      u32 (e.fileSize + obtenerBloquesLibres d * 64) < u32 (i32 offset)
    | renombrarArchivo _ viejoNombre _ => viejoNombre.1 = [barra] ∨
      ∀ nuevo, k.segunda = some nuevo → nuevo.resultado ≠ .archivoNoPathValido
    | eliminarArchivo _ path => path.1 = [barra] ∨ tieneHijos k.archivos l.posicion = true
    | utimens _ path _ => path.1 = [barra]

/-- The copy `k` says what a new one, `k'`, would say, but for the field that is written. -/
def Vigente (k k' : Copia) : Modificacion → Prop
  | escribirArchivo _ _ _ _ | truncarArchivo _ _ _ => k.primera = k'.primera
  | renombrarArchivo _ _ _ => k.primera = k'.primera ∧ k.segunda = k'.segunda
  | eliminarArchivo _ _ => k.primera = k'.primera ∧ ∀ l, k.primera = some l →
    tieneHijos k.archivos l.posicion = tieneHijos k'.archivos l.posicion
  | utimens _ _ _ => k.primera.map Lectura.sinLastmod = k'.primera.map Lectura.sinLastmod

end Modificacion

section Pasos
variable {s : Pokedex} {k k' : Copia}

theorem leer_bind (basura : OsadaFile) (path : Cadena) (f : Lectura → Op Pokedex ℤ) :
    (leer basura path >>= f) s = conLectura (leerPath s.disco basura path) f s := by
  rcases hl : leerPath s.disco basura path with _ | l
  · rw [leer_bind_none hl]
    rfl
  · rw [leer_bind_some hl]
    rfl

/-- The two steps one right after the other are the handler. -/
theorem confirmar_leer (m : Modificacion) (hora : ℕ) (s : Pokedex) :
    m.confirmar (m.leer s.disco) s = m.pedido.atender hora m.basura s := by
  cases m with
  | escribirArchivo basura path offset datos =>
    by_cases hdatos : datos = []
    · simp [Modificacion.confirmar, Modificacion.pedido, Pedido.atender, hdatos]
    · simp only [Modificacion.confirmar, Modificacion.pedido, Pedido.atender, if_neg hdatos]
      exact (leer_bind basura path _).symm
  | truncarArchivo basura path offset => exact (leer_bind basura path _).symm
  | renombrarArchivo basura viejoNombre nuevoNombre =>
    refine Eq.trans ?_ (leer_bind basura viejoNombre _).symm
    change conLectura (leerPath s.disco basura viejoNombre) _ s = _
    rcases leerPath s.disco basura viejoNombre with _ | viejo
    · rfl
    · exact (leer_bind basura nuevoNombre _).symm
  | eliminarArchivo basura path =>
    change _ = osadaEliminarArchivo basura path 0 s
    rw [osadaEliminarArchivo, Op.bind_some (Op.get_apply _ _)]
    exact (leer_bind basura path _).symm
  | utimens basura path segundos => exact (leer_bind basura path _).symm

theorem conLectura_sin {l : Option Lectura} {f : Lectura → Op Pokedex ℤ}
    (hf : ∀ l', l = some l' → (f l' s).2 = s) : (conLectura l f s).2 = s := by
  cases l with
  | none => rfl
  | some l => exact hf l rfl

theorem Modificacion.Rechaza.confirmar {m : Modificacion} (h : m.Rechaza s.disco k) :
    (m.confirmar k s).2 = s := by
  cases m with
  | escribirArchivo basura path offset datos =>
    rw [Modificacion.confirmar]
    split
    · rfl
    · next hdatos =>
      apply conLectura_sin
      intro l hl
      by_cases hr : l.resultado = .archivoExiste
      · rcases hd : l.descriptor with _ | e
        · simp [confirmarEditar, hr, hd]
        · rcases Nat.lt_or_ge l.posicion 2048 with hp | hp
          · rw [confirmarEditar_rechazado hr hd hp (h l e hl hr hd hdatos)]
          · rw [confirmarEditar_fuera hr hd hp]
      · rw [confirmarEditar_otro hr]
  | truncarArchivo basura path offset =>
    apply conLectura_sin
    intro l hl
    by_cases hr : l.resultado = .archivoExiste
    · rcases hd : l.descriptor with _ | e
      · simp [confirmarTruncar, hr, hd]
      · rcases Nat.lt_or_ge l.posicion 2048 with hp | hp
        · rw [confirmarTruncar_rechazado hr hd hp (h l e hl hr hd)]
        · rw [confirmarTruncar_fuera hr hd hp]
    · rw [confirmarTruncar_otro hr]
  | renombrarArchivo basura viejoNombre nuevoNombre =>
    apply conLectura_sin
    intro viejo hviejo
    apply conLectura_sin
    intro nuevo hnuevo
    rcases confirmarRenombrar_cases viejoNombre nuevoNombre viejo nuevo s with
      hrun | ⟨e, nombre, hr, hd, hr', _, hbarra, _⟩
    · rw [hrun]
    · rcases h viejo e hviejo hr hd with hbarra' | hnuevo'
      · exact absurd hbarra' hbarra
      · exact absurd hr' (hnuevo' nuevo hnuevo)
  | eliminarArchivo basura path =>
    apply conLectura_sin
    intro l hl
    rcases confirmarEliminar_cases k.archivos path l 0 s with hrun | ⟨e, hr, hd, hbarra, hrun⟩
    · rw [hrun]
    · rcases h l e hl hr hd with hbarra' | hhijos
      · exact absurd hbarra' hbarra
      · rw [hrun, eliminarArchivoInterna_hijos ⟨rfl, hhijos⟩]
  | utimens basura path segundos =>
    apply conLectura_sin
    intro l hl
    rcases confirmarUtimens_cases path l segundos s with hrun | ⟨e, hr, hd, hbarra, _⟩
    · rw [hrun]
    · exact absurd (h l e hl hr hd) hbarra

theorem confirmarUtimens_sinLastmod (path : Cadena) (l : Lectura) (segundos : ℤ) :
    confirmarUtimens path l.sinLastmod segundos = confirmarUtimens path l segundos := by
  rcases l with ⟨_ | e, _ | _ | _, posicion⟩ <;> rfl

/-- Of the copy of the table a deletion only looks whether there is something below. -/
theorem confirmarEliminar_copia {archivos archivos' : ℕ → OsadaFile} {path : Cadena} {l : Lectura}
    {hard : ℕ} (h : tieneHijos archivos l.posicion = tieneHijos archivos' l.posicion) :
    confirmarEliminar archivos path l hard = confirmarEliminar archivos' path l hard := by
  unfold confirmarEliminar eliminarArchivoInterna
  rw [h]

theorem Modificacion.Vigente.confirmar {m : Modificacion} (h : m.Vigente k k') :
    m.confirmar k = m.confirmar k' := by
  cases m with
  | escribirArchivo basura path offset datos =>
    simp only [Modificacion.confirmar, show k.primera = k'.primera from h]
  | truncarArchivo basura path offset =>
    simp only [Modificacion.confirmar, show k.primera = k'.primera from h]
  | renombrarArchivo basura viejoNombre nuevoNombre =>
    simp only [Modificacion.confirmar, h.1, h.2]
  | eliminarArchivo basura path =>
    obtain ⟨hprimera, hhijos⟩ := h
    simp only [Modificacion.confirmar, ← hprimera]
    rcases hl : k.primera with _ | l
    · simp only [conLectura]
    · exact confirmarEliminar_copia (hhijos l hl)
  | utimens basura path segundos =>
    have hsin : ∀ l : Option Lectura, conLectura l (confirmarUtimens path · segundos) =
        conLectura (l.map Lectura.sinLastmod) (confirmarUtimens path · segundos) := by
      intro l
      cases l with
      | none => rfl
      | some l => exact (confirmarUtimens_sinLastmod path l segundos).symm
    simp only [Modificacion.confirmar]
    rw [hsin, show k.primera.map _ = k'.primera.map _ from h, ← hsin]

end Pasos

/-! ## Any number of clients -/

def dosPasos : Optimistic Pokedex Modificacion Copia where
  read m s := m.leer s.disco
  commit m k s := (m.confirmar k s).2

/-- A step that, if it commits, has a copy that says what a new one would say, or one that is
turned down as a new one is. -/
def AlDia (c : Optimistic.State Pokedex Modificacion Copia) :
    Optimistic.Event Modificacion → Prop
  | .read _ _ => True
  | .commit i m => ∀ k, c.pending i = some (m, k) →
      m.Vigente k (m.leer c.memory.disco) ∨
        m.Rechaza c.memory.disco k ∧ m.Rechaza c.memory.disco (m.leer c.memory.disco)

theorem AlDia.current {c : Optimistic.State Pokedex Modificacion Copia}
    {e : Optimistic.Event Modificacion} (h : AlDia c e) : dosPasos.Current c e := by
  cases e with
  | read i m => trivial
  | commit i m =>
    intro k hk
    change (m.confirmar k c.memory).2 = (m.confirmar (m.leer c.memory.disco) c.memory).2
    rcases h k hk with hvigente | ⟨hk, hnueva⟩
    · rw [hvigente.confirmar]
    · rw [hk.confirmar, hnueva.confirmar]

/-- Whatever the order of the steps, the disk is that of the requests attended one at a time in
the order of their commits. -/
theorem serie_de_confirmaciones {s : Pokedex} {es : List (Optimistic.Event Modificacion)}
    {c' : Optimistic.State Pokedex Modificacion Copia}
    (h : Run (fun c e c' => AlDia c e ∧ dosPasos.Step c e c') (Optimistic.start s) es c')
    (hora : ℕ) :
    c'.memory = (Optimistic.committed es).foldl
      (fun s m => (m.pedido.atender hora m.basura s).2) s := by
  have hserve : dosPasos.serve = fun s m => (m.pedido.atender hora m.basura s).2 := by
    funext s m
    exact congrArg Prod.snd (confirmar_leer m hora s)
  rw [← hserve]
  exact dosPasos.serial (h.mono fun c e c' hpaso => ⟨hpaso.1.current, hpaso.2⟩)

@[irreducible] def pokedexConA : Pokedex :=
  ((Operacion.crearArchivo 0 .borrado rutaA).ejecutar (.inicial discoChico)).2

theorem bienFormado_pokedexConA : BienFormado pokedexConA.disco := by
  unfold pokedexConA
  exact (cumple_ejecutar ⟨bienFormado_discoChico, sinPendientes_inicial _⟩
    (.crearArchivo 0 .borrado rutaA) trivial).1.bienFormado

theorem nombra_pokedexConA : Nombra pokedexConA.disco rutaA 0 := by
  have hl : leerPath pokedexConA.disco .borrado rutaA =
      some ⟨some (pokedexConA.disco.archivos 0), .archivoExiste, 0⟩ := by decide +kernel
  exact ⟨by decide, _, hl, rfl, rfl⟩

/-- Two clients that both read before any of them commits. -/
theorem serie_de_confirmaciones_chica :
    let m₁ := Modificacion.utimens .borrado rutaA 5
    let m₂ := Modificacion.utimens .borrado rutaA 7
    ∃ c', Run dosPasos.Step (Optimistic.start pokedexConA)
        [.read 0 m₁, .read 1 m₂, .commit 1 m₂, .commit 0 m₁] c' ∧
      c'.memory = [m₂, m₁].foldl (fun s m => (m.pedido.atender 0 m.basura s).2) pokedexConA := by
  intro m₁ m₂
  have hprimera : ∀ c : Optimistic.State Pokedex Modificacion Copia, c.memory = pokedexConA →
      c.pending 1 = some (m₂, m₂.leer pokedexConA.disco) → AlDia c (.commit 1 m₂) := by
    intro c hmem hpend k hk
    rw [hpend, Option.some.injEq, Prod.mk.injEq] at hk
    rw [hmem, ← hk.2]
    exact .inl rfl
  have hsegunda : ∀ c : Optimistic.State Pokedex Modificacion Copia,
      c.memory = dosPasos.serve pokedexConA m₂ →
      c.pending 0 = some (m₁, m₁.leer pokedexConA.disco) → AlDia c (.commit 0 m₁) := by
    intro c hmem hpend k hk
    rw [hpend, Option.some.injEq, Prod.mk.injEq] at hk
    rw [hmem, ← hk.2]
    -- the copies differ in the date that is about to be written
    have hsin : (m₁.leer pokedexConA.disco).primera.map Lectura.sinLastmod =
        (m₁.leer (dosPasos.serve pokedexConA m₂).disco).primera.map Lectura.sinLastmod := by
      decide +kernel
    exact .inl hsin
  obtain ⟨c', hrun, _⟩ := dosPasos.run_crossed pokedexConA m₁ m₂ (fun _ _ _ => trivial)
    hprimera hsegunda
  exact ⟨c', hrun.mono fun c e c' h => h.2, serie_de_confirmaciones hrun 0⟩

/-- A file that is deleted while its date is being set comes back. -/
theorem no_toda_intercalacion_es_serial : ¬ ∀ (s : Pokedex) (m₁ m₂ : Modificacion) (p : ℕ)
    (es : List (Optimistic.Event Modificacion)) (c' : Optimistic.State Pokedex Modificacion Copia),
    BienFormado s.disco → Nombra s.disco m₁.ruta p → Nombra s.disco m₂.ruta p →
    Run dosPasos.Step (Optimistic.start s) es c' → (Optimistic.committed es).Perm [m₁, m₂] →
      c'.memory.disco.archivos =
        ([m₁, m₂].foldl (fun s m => (m.pedido.atender 0 m.basura s).2) s).disco.archivos ∨
      c'.memory.disco.archivos =
        ([m₂, m₁].foldl (fun s m => (m.pedido.atender 0 m.basura s).2) s).disco.archivos := by
  intro h
  obtain ⟨c', hrun, hmem⟩ := dosPasos.run_crossed (Q := fun _ _ => True) pokedexConA
    (.utimens .borrado rutaA 5) (.eliminarArchivo .borrado rutaA)
    (fun _ _ _ => trivial) (fun _ _ _ => trivial) (fun _ _ _ => trivial)
  have hserial := h pokedexConA (.utimens .borrado rutaA 5) (.eliminarArchivo .borrado rutaA) 0 _ c'
    bienFormado_pokedexConA nombra_pokedexConA nombra_pokedexConA
    (hrun.mono fun c e c' h => h.2) (.swap _ _ _)
  have hvuelve : (c'.memory.disco.archivos 0).state = .regular := by
    rw [hmem]
    decide +kernel
  rcases hserial with hserial | hserial
  · have hestado := congrArg OsadaFile.state (congrFun hserial 0)
    rw [hvuelve] at hestado
    exact absurd hestado (by decide +kernel)
  · have hestado := congrArg OsadaFile.state (congrFun hserial 0)
    rw [hvuelve] at hestado
    exact absurd hestado (by decide +kernel)

end TpSo.Osada
