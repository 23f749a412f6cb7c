import TpSo.Osada.DosPasos
import TpSo.Osada.Listado
import TpSo.Osada.Nombres
import TpSo.Osada.Resultados
import TpSo.PokeDex.Conversacion

/-!
# The names that a client lists

The name of an entry has 17 bytes at most, and 17 bytes are what the server copies, sends and the
client receives. A name that fills them has no terminator in any of the three, and `filler` is
given whatever is in the memory of the client after it.
-/

namespace TpSo.PokeDex

open Dialogue Rocket
open Osada (Cadena EsHijo HayDirectorio Lectura OsadaFile elementoDe hijos leerPath rutaRaiz)

/-- What `getDir` gives to `filler`, of the arrays that it receives the names in: `pila i` is the
memory after the `i`-th of them, up to a zero. -/
def pasadosAFiller (pila : ℕ → List UInt8) (nombres : List (List UInt8)) : List (List UInt8) :=
  nombres.mapIdx fun i nombre => (cadenaDe (nombre ++ pila i)).1

/-- The names of the live entries of the directory at `p`, in the order of the table. -/
def nombresDe (m : Momento) (p : ℕ) : List (List UInt8) :=
  (hijos m.pokedex.disco.archivos p).map fun i => (m.pokedex.disco.archivos i).nombre

/-- Whatever is in its memory, the client passes on the names of the directory. -/
def Lista (m : Momento) (p : ℕ) : (q : Party) → Resultado q → Prop
  | .here, _ => True
  | .there, leidos => ∃ nombres, leidos = [.directorio nombres] ∧
    ∀ pila, pasadosAFiller pila nombres = nombresDe m p

/-- However the network cuts the bytes, the client comes to have the names of the directory, and
each of them can be looked up. -/
structure ListaBien (m : Momento) (path : Cadena) (p : ℕ) : Prop where
  recibe : ∀ es c, Run Step (inicio [(.getDir path, m)]) es c →
    (Finished (Lista m p) c ∨ ∃ e c', Step c e c') ∧ Acc (fun c' c => ∃ e, Step c e c') c
  resuelven : ∀ nombre ∈ nombresDe m p,
    Osada.Resuelve m.pokedex.disco m.basura path p nombre

/-- A name with room for its terminator, that a path can have. -/
def NombreCorto (nombre : List UInt8) : Prop :=
  nombre ≠ [] ∧ nombre.length < 17 ∧ Osada.barra ∉ nombre

instance (nombre : List UInt8) : Decidable (NombreCorto nombre) :=
  inferInstanceAs (Decidable (_ ∧ _))

/-! ## One name -/

theorem cero_not_mem_nombre (e : OsadaFile) : (0 : UInt8) ∉ e.nombre :=
  (cadenaDe (e.fname.take 17)).2

section Nombre
variable {memoria : ℕ → UInt8} {e : OsadaFile} (resto : List UInt8)

/-- A name that is shorter than its array comes with its terminator. -/
theorem cadenaDe_elemento (hcorto : e.nombre.length < 17) :
    (cadenaDe ((elementoDe memoria e).nombre ++ resto)).1 = e.nombre := by
  have hne := Osada.distinto_de_cero (cero_not_mem_nombre e)
  obtain ⟨k, hk⟩ : ∃ k, 17 - e.nombre.length = k + 1 := ⟨16 - e.nombre.length, by omega⟩
  change ((e.nombre ++ 0 :: _).take 17 ++ resto).takeWhile (· ≠ 0) = e.nombre
  rw [List.take_append, List.take_of_length_le hcorto.le, hk, List.take_succ_cons,
    List.append_assoc, List.takeWhile_append_of_pos hne, List.cons_append,
    List.takeWhile_cons_of_neg (by simp), List.append_nil]

theorem cadenaDe_elemento_justo (hjusto : e.nombre.length = 17) :
    (cadenaDe ((elementoDe memoria e).nombre ++ resto)).1 = e.nombre ++ (cadenaDe resto).1 := by
  have hne := Osada.distinto_de_cero (cero_not_mem_nombre e)
  change ((e.nombre ++ 0 :: _).take 17 ++ resto).takeWhile (· ≠ 0) = _
  rw [List.take_append, List.take_of_length_le hjusto.le, hjusto, Nat.sub_self, List.take_zero,
    List.append_nil, List.takeWhile_append_of_pos hne]
  rfl

/-- Only the names that leave room for the terminator are independent of it. -/
theorem elemento_iff :
    (∀ resto, (cadenaDe ((elementoDe memoria e).nombre ++ resto)).1 = e.nombre) ↔
      e.nombre.length < 17 := by
  constructor
  · intro h
    by_contra hlleno
    have hjusto : e.nombre.length = 17 :=
      le_antisymm (Osada.length_getString _) (Nat.not_lt.mp hlleno)
    -- a byte of the stack is taken for the last one of the name
    have hpasado := h [1]
    rw [cadenaDe_elemento_justo [1] hjusto] at hpasado
    exact absurd hpasado (by simp [cadenaDe])
  · exact fun hcorto resto => cadenaDe_elemento resto hcorto

end Nombre

theorem pasadosAFiller_iff {is : List ℕ} {f g : ℕ → List UInt8} :
    (∀ pila, pasadosAFiller pila (is.map f) = is.map g) ↔
      ∀ i ∈ is, ∀ resto, (cadenaDe (f i ++ resto)).1 = g i := by
  constructor
  · intro h i hi resto
    obtain ⟨j, hj, rfl⟩ := List.mem_iff_getElem.mp hi
    have hpasado := congrArg (·[j]?) (h fun _ => resto)
    simpa [pasadosAFiller, hj] using hpasado
  · intro h pila
    apply List.ext_getElem (by simp [pasadosAFiller])
    intro j hj _
    simp [pasadosAFiller, h _ (List.getElem_mem _)]

/-! ## The exchange -/

section Intercambio
variable {m : Momento} {path : Cadena} {l : Lectura}

theorem respuesta_getDir (hl : leerPath m.pokedex.disco m.basura path = some l)
    (hr : l.resultado = .archivoExiste)
    (hdir : ∃ e, l.descriptor = some e ∧ e.state = .directory) :
    ∃ r, respuesta m (.getDir path) = some r ∧
      r.leido = .directorio ((hijos m.pokedex.disco.archivos l.posicion).map fun i =>
        (elementoDe m.memoria (m.pokedex.disco.archivos i)).nombre) ∧ r.ultima = false := by
  obtain ⟨e, hdes, hestado⟩ := hdir
  have hop : (Osada.osadaEstructuraDirectorio m.basura m.memoria path m.pokedex).1 =
      some ((Osada.listarDirectorio m.pokedex.disco l.posicion).map (elementoDe m.memoria)) := by
    rw [Osada.osadaEstructuraDirectorio, Osada.leer_bind_some hl, hr, hdes]
    change ((if e.state = .directory then _ else _ : Op Osada.Pokedex _) m.pokedex).1 = _
    rw [if_pos hestado]
    rfl
  refine ⟨_, Option.bind_eq_some_iff.mpr ⟨_, hop, rfl⟩, ?_, rfl⟩
  dsimp only
  rw [Osada.listarDirectorio_eq, List.map_map, List.map_map]
  rfl

theorem leidos_uno {pedido : Pedido} {r : Respuesta} {leidos : List Leido}
    (hr : respuesta m pedido = some r) (h : SeEntienden [(pedido, m)] cliente leidos) :
    leidos = [r.leido] := by
  change leidos.map some = [(respuesta m pedido).map Respuesta.leido] at h
  rw [hr] at h
  exact List.map_injective_iff.mpr (Option.some_injective _) h

theorem cabe_getDir (hlargo : path.1.length + 1 < 2147483648) : Cabe (.getDir path) := by
  constructor
  · intro campo hc
    simp only [campos, List.mem_cons, List.not_mem_nil, or_false] at hc
    rcases hc with rfl | rfl | rfl
    · exact ⟨bytesDeInt_ne_nil _, by simp [Mensaje.bytes]⟩
    · exact ⟨bytesDeInt_ne_nil _, by simp [bytesDeLargo]⟩
    · exact ⟨texto_ne_nil path, by rwa [length_texto]⟩
  · intro _ _ _ heq
    cases heq

/-- The client comes to have the names just if all of them leave room for a terminator. -/
theorem recibe_iff (hlargo : path.1.length + 1 < 2147483648)
    (hl : leerPath m.pokedex.disco m.basura path = some l) (hr : l.resultado = .archivoExiste)
    (hdir : ∃ e, l.descriptor = some e ∧ e.state = .directory) :
    (∀ es c, Run Step (inicio [(.getDir path, m)]) es c →
      (Finished (Lista m l.posicion) c ∨ ∃ e c', Step c e c') ∧
        Acc (fun c' c => ∃ e, Step c e c') c) ↔
      ∀ i ∈ hijos m.pokedex.disco.archivos l.posicion,
        (m.pokedex.disco.archivos i).nombre.length < 17 := by
  have hpasan := @pasadosAFiller_iff (hijos m.pokedex.disco.archivos l.posicion)
    (fun i => (elementoDe m.memoria (m.pokedex.disco.archivos i)).nombre)
    (fun i => (m.pokedex.disco.archivos i).nombre)
  simp only [elemento_iff] at hpasan
  obtain ⟨r, hrespuesta, hleido, hultima⟩ := respuesta_getDir hl hr hdir
  have hresponde : ∀ e ∈ [(Pedido.getDir path, m)], Cabe e.1 ∧ Contesta e.2 e.1 :=
    List.forall_mem_singleton.mpr ⟨cabe_getDir hlargo, r, hrespuesta, hultima⟩
  rw [← hpasan]
  constructor
  · intro h pila
    -- some run comes to an end
    obtain ⟨es, c, hrun, hfin⟩ :=
      (abreast_inicio true hresponde).exists_run fun _ _ => Ended.silent
    have hlista := (h es c hrun).1.resolve_right (hfin.no_step fun _ _ => Ended.silent)
    obtain ⟨_, leidos, hret, hentiende⟩ := hfin cliente
    obtain ⟨_, leidos', hret', nombres, rfl, hpasados⟩ := hlista cliente
    rw [hret, Prog.ret.injEq] at hret'
    subst hret'
    have heq := leidos_uno hrespuesta hentiende
    rw [hleido, List.cons.injEq, Leido.directorio.injEq] at heq
    rw [← heq.1]
    exact hpasados pila
  · intro h es c hrun
    obtain ⟨hfin, hacc⟩ := conversan_of_contesta hresponde es c hrun
    refine ⟨hfin.imp_left fun hfin p => ?_, hacc⟩
    obtain ⟨hwire, a, hret, hentiende⟩ := hfin p
    refine ⟨hwire, a, hret, ?_⟩
    cases p with
    | here => trivial
    | there => exact ⟨_, by rw [leidos_uno hrespuesta hentiende, hleido], h⟩

end Intercambio

/-- A server whose disk has one file, with a name of one byte. -/
def conA : Momento := ⟨Osada.pokedexConA, 0, .borrado, fun _ => 0⟩

/-- A server whose disk has one file, with a name of 17 bytes. -/
@[irreducible] def pokedexConJusta : Osada.Pokedex :=
  ((Osada.Operacion.crearArchivo 0 .borrado Osada.rutaJusta).ejecutar (.inicial Osada.discoChico)).2

end TpSo.PokeDex
