import TpSo.Osada.Lecturas
import TpSo.PokeDex.Atencion

/-!
# A client and the file system

What the functions of a client give, one request after another over the connection, is what the
file system answers: neither the network nor the disk is seen from there.
-/

namespace TpSo.PokeDex

open Osada (Pokedex Sistema sistema Fiel componentes)

/-- The state of the server once it has attended the request. -/
def estado (m : Momento) (pedido : Pedido) : Pokedex :=
  ((operacion m (atendido pedido)).op m.pokedex).2

/-- What a function gives of the number that answers a change. -/
def leidoDe : Pedido → ℤ → Leido
  | .truncarArchivo _ _, r => .truncado (if r = 1 then 0 else r)
  | .borrarArchivo _, r => .borrado r
  | .crearDirectorio _, r => .directorioCreado (u32 r)
  | .crearArchivo _, r => .archivoCreado r
  | .renombrarArchivo _ _, r => .renombrado (u32 r)
  | .utimens _ _, r => .fechado (if r = 1 then 0 else -1)
  | _, r => .escritos r

def statDe (atributos : Osada.DirectoryAttr) : Stat where
  size := if atributos.tipoArchivo = .archivo then some atributos.size else none
  lastModif := u32 atributos.lastmod

/-- What a function that looks at a path gives when the system is `a`. -/
def Muestra (a : Sistema) : Pedido → Leido → Prop
  | .abrirArchivo path, leido => leido = .abierto (a.arbol.node (componentes path)).isSome
  | .leerArchivo size offset path, leido => ∃ memoria buf,
    Osada.leerNodo memoria size offset.toNat (a.arbol.node (componentes path)) = some (some buf) ∧
      leido = .archivo buf
  | .getDir path, leido => ∃ elementos, Osada.ListaDe a.arbol (componentes path) elementos ∧
    leido = .directorio (elementos.map (·.nombre))
  | .getAttr path, leido => ∃ atributos,
    Osada.AtributosDe (a.arbol.node (componentes path)) atributos ∧
      leido = .atributos (atributos.map statDe)
  | _, _ => False

/-- What a client sees of the system, and what it does to it. -/
def PasoDelCliente (a : Sistema) (e : Pedido × Leido) (a' : Sistema) : Prop :=
  Muestra a e.1 e.2 ∧ a' = a ∨ ∃ m o r, orden m (atendido e.1) = some o ∧
    Sistema.PasoDelSistema a (o, r) a' ∧ e.2 = leidoDe e.1 r

/-- The requests that are answered as they should: what is read stands before the last block of a
file that is there, and the new directory is not the root, whose path is freed twice. -/
def Pedido.EnRegla (a : Sistema) (m : Momento) : Pedido → Prop
  | .abrirArchivo path | .getDir path | .getAttr path => path.Legible
  | .leerArchivo size offset path => path.Legible ∧ 0 ≤ offset ∧ offset < 2147483648 ∧
    ∃ bytes, a.arbol.node (componentes path) = some (.file bytes) ∧
      Osada.AntesDelUltimo bytes.length size offset.toNat
  | .crearDirectorio path => path.1 ≠ [Osada.barra] ∧
    ∀ o ∈ orden m (.crearDirectorio path), o.EnRegla a ∧ o.Legible
  | pedido => ∀ o ∈ orden m (atendido pedido), o.EnRegla a ∧ o.Legible

theorem Pedido.EnRegla.sinRaiz {a : Sistema} {m : Momento} {pedido : Pedido}
    (h : pedido.EnRegla a m) (path : Osada.Cadena) (hp : pedido = .crearDirectorio path) :
    path.1 ≠ [Osada.barra] := by
  subst hp
  exact h.1

def PasoDeSesion (s : Pokedex) (e : Peticion) (s' : Pokedex) : Prop :=
  e.2.pokedex = s ∧ Cabe e.1 ∧ e.1.EnRegla (sistema s) e.2 ∧ s' = estado e.2 e.1

/-! ## The numbers -/

section Numeros
variable {a : Sistema} {cs hasta : List (List UInt8)} {r : ℤ}

theorem rango_crear {nodo : Node (List UInt8)} (h : (a.crear cs nodo).1.Es r) :
    -32768 ≤ r ∧ r < 32768 := by
  unfold Sistema.crear at h
  split at h
  · obtain rfl : r = Osada.noHayDescriptores := h
    decide
  · split at h
    · obtain ⟨h0, hlt⟩ : 0 ≤ r ∧ r < 2048 := h
      omega
    · obtain rfl : r = Osada.Resultado.pathInvalido.toInt := h
      decide

theorem rango_reescribir {n : ℕ} {nuevos : List UInt8 → List UInt8} {r' : ℤ} (h0 : 0 ≤ r')
    (hmax : r' < 2147483648) (h : (a.reescribir cs n nuevos r').1.Es r) :
    -2147483648 ≤ r ∧ r < 2147483648 := by
  unfold Sistema.reescribir at h
  split at h
  · split at h
    · obtain rfl : r = r' := h
      omega
    · obtain rfl : r = Osada.noHayEspacio := h
      decide
  · obtain rfl : r = Osada.archivoInexistente := h
    decide

/-- Every number fits in the field that it is answered in. -/
theorem rango_hacer {o : Osada.Operacion} (ho : o.EnRegla a) (h : (a.hacer o).1.Es r) :
    -2147483648 ≤ r ∧ r < 2147483648 := by
  cases o with
  | crearArchivo hora basura path =>
    have hr := rango_crear h
    omega
  | crearDirectorio hora basura path =>
    have hr := rango_crear h
    omega
  | editar basura path inicioBytes bytesAEscribir archivo =>
    obtain ⟨_, hlargo, hmax, _⟩ := ho
    exact rango_reescribir (Int.natCast_nonneg _) (hlargo ▸ hmax) h
  | truncar basura path bytesATruncar =>
    exact rango_reescribir (by decide) (by decide) h
  | renombrar basura viejoNombre nuevoNombre =>
    rw [Sistema.hacer, Sistema.renombrar] at h
    split at h
    · obtain rfl : r = 1 := h
      decide
    · obtain rfl : r = Osada.archivoInexistente := h
      decide
  | eliminar basura path hard =>
    rw [Sistema.hacer, Sistema.eliminar] at h
    split at h
    · split at h
      · obtain rfl : r = 1 := h
        decide
      · obtain rfl : r = Osada.directorioNoVacio := h
        decide
    · obtain rfl : r = Osada.archivoInexistente := h
      decide
  | utimens basura path segundos =>
    rw [Sistema.hacer, Sistema.fechar] at h
    split at h
    · obtain rfl : r = 1 := h
      decide
    · obtain rfl : r = -1 := h
      decide

end Numeros

/-! ## One request -/

section Una
variable {m : Momento} {pedido : Pedido}

/-- The operation of a change, and what the function makes of its number. -/
theorem operacion_orden {o : Osada.Operacion} (ho : orden m (atendido pedido) = some o) :
    ∃ f : ℤ → Respuesta, operacion m (atendido pedido) = ⟨ℤ, o.ejecutar, fun r => some (f r)⟩ ∧
      ∀ (a : Sistema) (r : ℤ), o.EnRegla a → (a.hacer o).1.Es r → (f r).leido = leidoDe pedido r := by
  have hentero : ∀ {a : Sistema} {r : ℤ} (leido : ℤ → Leido), o.EnRegla a → (a.hacer o).1.Es r →
      (Respuesta.entero r leido).leido = leido r := by
    intro a r leido hregla hr
    obtain ⟨hmin, hmax⟩ := rango_hacer hregla hr
    rw [Respuesta.entero, i32_of_range hmin hmax]
  have hcorto : ∀ {r : ℤ}, -32768 ≤ r ∧ r < 32768 → i16 r = r := by
    intro r hr
    unfold i16
    split <;> omega
  cases pedido with
  | abrirArchivo path => cases ho
  | leerArchivo size offset path => cases ho
  | getDir path => cases ho
  | getAttr path => cases ho
  | crearDirectorio path =>
    obtain rfl := Option.some.inj ho
    refine ⟨fun r => ⟨[bytesOfInt 2 r], .directorioCreado (u32 (i16 r)),
      decide (Osada.liberaElPath path r)⟩, rfl, fun a r _ hr => ?_⟩
    exact congrArg (fun x => Leido.directorioCreado (u32 x)) (hcorto (rango_crear hr))
  | crearArchivo path =>
    obtain rfl := Option.some.inj ho
    refine ⟨fun r => ⟨[bytesOfInt 2 r], .archivoCreado (i16 r), false⟩, rfl, fun a r _ hr => ?_⟩
    exact congrArg Leido.archivoCreado (hcorto (rango_crear hr))
  | escribirArchivo offset path buf =>
    obtain rfl := Option.some.inj ho
    exact ⟨_, rfl, fun a r => hentero _⟩
  | truncarArchivo path offset =>
    obtain rfl := Option.some.inj ho
    exact ⟨_, rfl, fun a r => hentero _⟩
  | borrarArchivo path =>
    obtain rfl := Option.some.inj ho
    exact ⟨_, rfl, fun a r => hentero _⟩
  | renombrarArchivo desde hasta =>
    obtain rfl := Option.some.inj ho
    exact ⟨_, rfl, fun a r => hentero _⟩
  | utimens path segundos =>
    obtain rfl := Option.some.inj ho
    exact ⟨_, rfl, fun a r => hentero _⟩

theorem contesta_orden {o : Osada.Operacion} (hs : Fiel m.pokedex)
    (ho : orden m (atendido pedido) = some o) (hregla : o.EnRegla (sistema m.pokedex))
    (hleg : o.Legible) :
    ∃ r, respuesta m pedido = some r ∧
      PasoDelCliente (sistema m.pokedex) (pedido, r.leido) (sistema (estado m pedido)) ∧
      Fiel (estado m pedido) := by
  obtain ⟨r, s', hpaso⟩ := hs.vuelve hregla hleg
  obtain ⟨hsistema, hs'⟩ := hpaso.refina hs
  obtain ⟨f, hop, hleido⟩ := operacion_orden ho
  have hrun : o.ejecutar m.pokedex = (some r, s') := hpaso.2
  have hestado : estado m pedido = s' := by
    rw [estado, hop]
    exact congrArg Prod.snd hrun
  have hrespuesta : respuesta m pedido = some (f r) := by
    rw [respuesta, hop]
    change (o.ejecutar m.pokedex).1.bind (fun r => some (f r)) = _
    rw [hrun]
    rfl
  refine ⟨f r, hrespuesta, ?_, hestado ▸ hs'⟩
  rw [hestado]
  exact .inr ⟨m, o, r, ho, hsistema, hleido _ r hregla hsistema.1⟩

theorem estado_leer {β : Type} {basura : Osada.OsadaFile} {path : Osada.Cadena} {s : Pokedex}
    {f : Osada.Lectura → Op Pokedex β} (hf : ∀ l, (f l s).2 = s) :
    ((Osada.leer basura path >>= f) s).2 = s := by
  rcases hl : Osada.leerPath s.disco basura path with _ | l
  · rw [Osada.leer_bind_none hl]
  · rw [Osada.leer_bind_some hl]
    exact hf l

theorem estado_existe {path : Osada.Cadena} : estado m (.abrirArchivo path) = m.pokedex :=
  estado_leer fun _ => rfl

theorem estado_atributos {path : Osada.Cadena} : estado m (.getAttr path) = m.pokedex := by
  apply estado_leer
  rintro ⟨_ | descriptor, resultado, posicion⟩ <;> cases resultado <;> rfl

theorem estado_estructura {path : Osada.Cadena} : estado m (.getDir path) = m.pokedex := by
  apply estado_leer
  rintro ⟨_ | descriptor, resultado, posicion⟩
  · cases resultado <;> rfl
  · cases resultado with
    | archivoExiste =>
      change ((if descriptor.state = .directory then _ else _ : Op Pokedex _) m.pokedex).2 = _
      split <;> rfl
    | archivoNoPathValido => rfl
    | pathInvalido => rfl

theorem estado_lectura {size : ℕ} {offset : ℤ} {path : Osada.Cadena} :
    estado m (.leerArchivo size offset path) = m.pokedex := by
  apply estado_leer
  rintro ⟨_ | descriptor, resultado, posicion⟩
  · cases resultado <;> rfl
  · cases resultado with
    | archivoExiste =>
      change ((if descriptor.state = .directory ∨ i32 (size : ℤ) < 0 then _ else _ : Op Pokedex _)
        m.pokedex).2 = _
      split
      · rfl
      · rcases (Osada.obtenerArchivoInterna m.pokedex.disco descriptor (i32 size) (i32 (i32 offset))
          ⟨[], []⟩).1 with _ | leido <;> rfl
    | archivoNoPathValido => rfl
    | pathInvalido => rfl

theorem respuesta_lectura {size pos : ℕ} {path : Osada.Cadena} {bytes : List UInt8}
    (hs : Fiel m.pokedex) (hleg : path.Legible) (hsize : size < 2147483648)
    (hpos : pos < 2147483648)
    (hnodo : (sistema m.pokedex).arbol.node (componentes path) = some (.file bytes))
    (hantes : Osada.AntesDelUltimo bytes.length size pos) :
    ∃ buf, respuesta m (.leerArchivo size pos path) = some ⟨[buf], .archivo buf, false⟩ ∧
      Osada.leerNodo m.memoria size pos (some (.file bytes)) = some (some buf) := by
  have hlee := hs.lee_como m.basura m.memoria hleg hsize hpos
  rw [hnodo, Osada.leerNodo, if_pos hantes] at hlee
  refine ⟨_, ?_, if_pos hantes⟩
  change (Osada.osadaLeerArchivo m.basura m.memoria path size (i32 pos) m.pokedex).1.bind _ = _
  rw [i32_natCast_of_lt hpos, hlee]
  simp only [Option.bind_some, operacion, atendido, Option.map_some]
  rw [List.take_append_of_le_length (length_leido m size _).ge, List.take_take, min_self]

theorem respuesta_atributos {path : Osada.Cadena} {atributos : Option Osada.DirectoryAttr}
    (hs : Fiel m.pokedex)
    (hlee : (Osada.osadaGetAtributosArchivo m.basura path m.pokedex).1 = some atributos)
    (hes : Osada.AtributosDe ((sistema m.pokedex).arbol.node (componentes path)) atributos) :
    ∃ r, respuesta m (.getAttr path) = some r ∧ r.leido = .atributos (atributos.map statDe) := by
  have hr : respuesta m (.getAttr path) = (operacion m (.getAttr path)).respuesta atributos :=
    congrArg (Option.bind · _) hlee
  rw [hr]
  cases atributos with
  | none => exact ⟨_, rfl, rfl⟩
  | some a =>
    simp only [operacion]
    split
    · next harchivo =>
      refine ⟨_, rfl, ?_⟩
      have hsize : u32 a.size = a.size := by
        rcases hnodo : (sistema m.pokedex).arbol.node (componentes path) with _ | nodo
        · rw [hnodo] at hes
          cases hes
        · rw [hnodo] at hes
          obtain ⟨_, ⟨⟩, htipo, htam⟩ := hes
          cases nodo with
          | dir => exact absurd (harchivo.symm.trans htipo) (by decide)
          | file bytes =>
            have hmax := hs.largo_bytes hnodo
            rw [htam bytes rfl]
            exact u32_natCast_of_lt (by omega)
      simp only [Option.map_some, statDe, if_pos harchivo, hsize]
    · next harchivo =>
      refine ⟨_, rfl, ?_⟩
      simp only [Option.map_some, statDe, if_neg harchivo]

/-- A request that meets the condition has an answer, which is one of the system. -/
theorem contesta_una {s s' : Pokedex} {e : Peticion} (hs : Fiel s) (h : PasoDeSesion s e s') :
    ∃ r, respuesta e.2 e.1 = some r ∧ PasoDelCliente (sistema s) (e.1, r.leido) (sistema s') ∧
      Fiel s' := by
  obtain ⟨pedido, m⟩ := e
  obtain ⟨rfl, hcabe, hregla, rfl⟩ := h
  -- an answer that shows the system as it is
  have hmuestra : ∀ r, estado m pedido = m.pokedex → respuesta m pedido = some r →
      Muestra (sistema m.pokedex) pedido r.leido → ∃ r, respuesta m pedido = some r ∧
        PasoDelCliente (sistema m.pokedex) (pedido, r.leido) (sistema (estado m pedido)) ∧
        Fiel (estado m pedido) := by
    intro r hestado hr hve
    rw [hestado]
    exact ⟨r, hr, .inl ⟨hve, rfl⟩, hs⟩
  have hcambio : (∀ o ∈ orden m (atendido pedido), o.EnRegla (sistema m.pokedex) ∧ o.Legible) →
      (orden m (atendido pedido)).isSome = true →
      ∃ r, respuesta m pedido = some r ∧
        PasoDelCliente (sistema m.pokedex) (pedido, r.leido) (sistema (estado m pedido)) ∧
        Fiel (estado m pedido) := by
    intro hregla hsome
    obtain ⟨o, ho⟩ := Option.isSome_iff_exists.mp hsome
    obtain ⟨ho', hleg⟩ := hregla o ho
    exact contesta_orden hs ho ho' hleg
  cases pedido with
  | abrirArchivo path =>
    have hexiste := Osada.existe_como (s := m.pokedex) m.basura hregla
    refine hmuestra _ estado_existe (congrArg (Option.bind · _) hexiste) ?_
    cases hsome : ((sistema m.pokedex).arbol.node (componentes path)).isSome with
    | false => exact congrArg Leido.abierto hsome.symm
    | true => exact congrArg Leido.abierto hsome.symm
  | leerArchivo size offset path =>
    obtain ⟨hleg, h0, hmax, bytes, hnodo, hantes⟩ := hregla
    obtain ⟨_, hsize⟩ := hcabe.2 size offset path rfl
    obtain ⟨pos, rfl⟩ := Int.eq_ofNat_of_zero_le h0
    rw [Int.toNat_natCast] at hantes
    obtain ⟨buf, hr, hbuf⟩ := respuesta_lectura hs hleg hsize (by omega) hnodo hantes
    refine hmuestra _ estado_lectura hr ⟨m.memoria, buf, ?_, rfl⟩
    rw [Int.toNat_natCast, hnodo]
    exact hbuf
  | getDir path =>
    obtain ⟨elementos, hlista, hes⟩ := hs.lista_como m.basura m.memoria hregla
    exact hmuestra _ estado_estructura (congrArg (Option.bind · _) hlista) ⟨elementos, hes, rfl⟩
  | getAttr path =>
    obtain ⟨atributos, hlee, hes⟩ := hs.atributos_como m.basura hregla
    obtain ⟨r, hr, hleido⟩ := respuesta_atributos hs hlee hes
    exact hmuestra r estado_atributos hr ⟨atributos, hes, hleido⟩
  | crearDirectorio path => exact hcambio hregla.2 rfl
  | crearArchivo path => exact hcambio hregla rfl
  | escribirArchivo offset path buf => exact hcambio hregla rfl
  | truncarArchivo path offset => exact hcambio hregla rfl
  | borrarArchivo path => exact hcambio hregla rfl
  | renombrarArchivo desde hasta => exact hcambio hregla rfl
  | utimens path segundos => exact hcambio hregla rfl

end Una

/-! ## The conversation -/

theorem contesta_todas {s s' : Pokedex} {peticiones : List Peticion} (hs : Fiel s)
    (h : Run PasoDeSesion s peticiones s') :
    (∀ e ∈ peticiones, Cabe e.1 ∧ Contesta e.2 e.1) ∧
      ∃ leidos, SeEntienden peticiones .there leidos ∧
        Run PasoDelCliente (sistema s) ((peticiones.map Prod.fst).zip leidos) (sistema s') := by
  induction h with
  | nil s => exact ⟨by simp, [], rfl, .nil (sistema s)⟩
  | cons hpaso _ ih =>
    obtain ⟨r, hr, hcliente, hs'⟩ := contesta_una hs hpaso
    obtain ⟨hresto, leidos, hleidos, hrun⟩ := ih hs'
    have hultima : r.ultima = false := ultima_eq_false hpaso.2.2.1.sinRaiz hr
    refine ⟨List.forall_mem_cons.mpr ⟨⟨hpaso.2.1, r, hr, hultima⟩, hresto⟩, r.leido :: leidos, ?_,
      .cons hcliente hrun⟩
    change some r.leido :: leidos.map some = _
    rw [hleidos, List.map_cons, hr, Option.map_some]

end TpSo.PokeDex
