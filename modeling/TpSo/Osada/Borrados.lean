import Mathlib.Data.Set.Card
import Mathlib.Logic.Relation
import TpSo.Osada.Aislamiento
import TpSo.Osada.Arbol

/-!
# Deleting a directory and what is below it

With `hard` set `eliminarArchivoInterna` means to call itself on the entries below, and calls a
handler of the server by the name of `eliminarArchivo`: nothing below is deleted or counted.
-/

namespace TpSo.Osada

open Function (update)

def EsHijo (archivos : ℕ → OsadaFile) (i j : ℕ) : Prop :=
  i < 2048 ∧ (archivos i).Vivo ∧ (archivos i).parentDirectory = j

/-- The entry at `p` and the live entries below it. -/
def Rama (archivos : ℕ → OsadaFile) (p : ℕ) : Set ℕ :=
  {i | Relation.ReflTransGen (EsHijo archivos) i p}

/-- The whole branch is deleted, and nothing else; `r` is the result. -/
structure BorraRama (s : Pokedex) (p : ℕ) (r : ℤ) (s' : Pokedex) : Prop where
  borrados : ∀ i < 2048, i ∈ Rama s.disco.archivos p →
    s'.disco.archivos i = { s.disco.archivos i with state := .deleted }
  quedan : ∀ i < 2048, i ∉ Rama s.disco.archivos p → s'.disco.archivos i = s.disco.archivos i
  bloques : ∀ b < s.disco.header.dataBlocks, bit s'.disco.bitmap (s.disco.inicio + b) = true ↔
    bit s.disco.bitmap (s.disco.inicio + b) = true ∧
      ¬ ∃ i ∈ Rama s.disco.archivos p, (s.disco.archivos i).state = .regular ∧
        BloqueDe s.disco i b
  cuenta : r = (Rama s.disco.archivos p).ncard
  sinHuerfanos : ∀ i < 2048, (s'.disco.archivos i).Vivo →
    (s'.disco.archivos i).parentDirectory < 2048 →
    (s'.disco.archivos (s'.disco.archivos i).parentDirectory).Vivo

structure BorraBien (basura : OsadaFile) (path : Cadena) (hard p : ℕ) (s : Pokedex) : Prop where
  conHijos : hard = 0 → tieneHijos s.disco.archivos p = true →
    osadaEliminarArchivo basura path hard s = (some directorioNoVacio, s)
  todo : hard ≠ 0 ∨ tieneHijos s.disco.archivos p = false →
    Op.Returns (osadaEliminarArchivo basura path hard) s (BorraRama s p)

section Rama
variable {archivos : ℕ → OsadaFile} {p : ℕ}

theorem tieneHijos_iff : tieneHijos archivos p = true ↔ ∃ i, EsHijo archivos i p := by
  unfold tieneHijos EsHijo OsadaFile.Vivo
  rw [List.any_eq_true]
  constructor
  · rintro ⟨i, hi, hhijo⟩
    simp only [decide_eq_true_eq] at hhijo
    exact ⟨i, List.mem_range.mp hi, hhijo.2, hhijo.1⟩
  · rintro ⟨i, hi, hvivo, hpadre⟩
    exact ⟨i, List.mem_range.mpr hi, by simp [hvivo, hpadre]⟩

theorem rama_sin_hijos (h : tieneHijos archivos p = false) : Rama archivos p = {p} := by
  ext i
  rw [Set.mem_singleton_iff]
  constructor
  · intro hi
    cases hi with
    | refl => rfl
    | tail _ hhijo =>
      rw [tieneHijos_iff.mpr ⟨_, hhijo⟩] at h
      cases h
  · rintro rfl
    exact .refl

theorem Arbol.hijo_ne (h : Arbol archivos) {i : ℕ} (hhijo : EsHijo archivos i p) (hp : p < 2048) :
    i ≠ p := by
  rintro rfl
  obtain ⟨hi, hvivo, hpadre⟩ := hhijo
  have hsube := h.alcanza i hi hvivo
  rw [hpadre] at hsube
  exact hsube.not_of_fixed hpadre (by unfold posicionBarra; omega)

theorem Arbol.padre_vivo (h : Arbol archivos) {i : ℕ} (hi : i < 2048) (hvivo : (archivos i).Vivo)
    (hpadre : (archivos i).parentDirectory < 2048) :
    (archivos (archivos i).parentDirectory).Vivo := by
  have hsube := h.alcanza i hi hvivo
  generalize (archivos i).parentDirectory = q at hsube hpadre
  cases hsube with
  | root => exact absurd hpadre (by decide)
  | step hdir _ =>
    intro hdel
    rw [hdir.2] at hdel
    cases hdel

end Rama

section Borrar
variable {s : Pokedex} {basura : OsadaFile} {path : Cadena} {l : Lectura} {hard : ℕ}

theorem osadaEliminarArchivo_eq (hl : leerPath s.disco basura path = some l)
    (hr : l.resultado = .archivoExiste) (hraiz : ¬ EsRaiz path) :
    osadaEliminarArchivo basura path hard s = eliminarArchivoInterna s.disco.archivos l.posicion
      (s.disco.archivos l.posicion) hard s := by
  obtain ⟨_, hdes, _⟩ := leerPath_entrada hl hr hraiz
  have hbarra : path.1 ≠ [barra] := fun h => hraiz (.inl h)
  rw [osadaEliminarArchivo, Op.bind_some (Op.get_apply _ _), leer_bind_some hl]
  unfold confirmarEliminar
  rw [hr, hdes]
  dsimp only
  rw [if_pos hbarra]

/-- What a deletion that goes through leaves: the one entry, and its blocks. -/
structure BorraUno (s : Pokedex) (p : ℕ) (r : ℤ) (s' : Pokedex) : Prop where
  resultado : r = 1
  archivos : s'.disco.archivos =
    update s.disco.archivos p { s.disco.archivos p with state := .deleted }
  bloques : ∀ b < s.disco.header.dataBlocks, bit s'.disco.bitmap (s.disco.inicio + b) = true ↔
    bit s.disco.bitmap (s.disco.inicio + b) = true ∧
      ¬ ((s.disco.archivos p).state = .regular ∧ BloqueDe s.disco p b)

theorem borraUno_eliminarArchivo (hd : BienFormado s.disco)
    (hl : leerPath s.disco basura path = some l) (hr : l.resultado = .archivoExiste)
    (hraiz : ¬ EsRaiz path)
    (hhijos : ¬ (hard = 0 ∧ tieneHijos s.disco.archivos l.posicion = true)) :
    Op.Returns (osadaEliminarArchivo basura path hard) s (BorraUno s l.posicion) := by
  obtain ⟨hp, _, _⟩ := leerPath_entrada hl hr hraiz
  obtain ⟨cad, hocu, _⟩ := hd.ocupacion
  have hprimero : s.disco.raiz l.posicion = (s.disco.archivos l.posicion).raiz := by
    simp [Disco.raiz, OsadaFile.raiz, hp]
  obtain ⟨r, s', hrun, huno, hedito⟩ := returns_eliminarArchivoInterna hocu hprimero hhijos
  refine ⟨r, s', (osadaEliminarArchivo_eq hl hr hraiz).trans hrun, huno, hedito.archivos hp, ?_⟩
  intro b hb
  have hbits := hedito.ocupacion.bits b (by rwa [hedito.header])
  rw [inicio_congr hedito.header] at hbits
  rw [hbits, hocu.bits b hb]
  -- the blocks of the chain, if there is one, are of no other entry
  have hpropio : b ∈ cad l.posicion ↔
      (s.disco.archivos l.posicion).state = .regular ∧ BloqueDe s.disco l.posicion b := by
    constructor
    · intro hmem
      by_cases hreg : (s.disco.archivos l.posicion).state = .regular
      · exact ⟨hreg, _, hocu.cadena hp hreg, hmem⟩
      · rw [hocu.cad_eq_nil fun h => hreg h.2] at hmem
        cases hmem
    · rintro ⟨hreg, xs, hx, hmem⟩
      rwa [hx.unique (hocu.cadena hp hreg)] at hmem
  rw [← hpropio]
  constructor
  · rintro ⟨i, hi⟩
    rcases eq_or_ne i l.posicion with rfl | hne
    · rw [Function.update_self] at hi
      cases hi
    · rw [Function.update_of_ne hne] at hi
      exact ⟨⟨i, hi⟩, hocu.fat.disjoint i l.posicion hne b hi⟩
  · rintro ⟨⟨i, hi⟩, hno⟩
    have hne : i ≠ l.posicion := by
      rintro rfl
      exact hno hi
    exact ⟨i, by rwa [Function.update_of_ne hne]⟩

theorem BorraUno.borraRama {p : ℕ} {r : ℤ} {s' : Pokedex} (h : BorraUno s p r s')
    (ha : Arbol s.disco.archivos) (hhijos : tieneHijos s.disco.archivos p = false) :
    BorraRama s p r s' := by
  have hrama := rama_sin_hijos hhijos
  refine ⟨?_, ?_, ?_, ?_, ?_⟩
  · intro i _ hi
    rw [hrama] at hi
    obtain rfl := Set.mem_singleton_iff.mp hi
    rw [h.archivos, Function.update_self]
  · intro i _ hi
    rw [hrama] at hi
    rw [h.archivos, Function.update_of_ne hi]
  · intro b hb
    rw [h.bloques b hb, hrama]
    simp
  · rw [h.resultado, hrama, Set.ncard_singleton]
    rfl
  · intro i hi hvivo hpadre
    have hip : i ≠ p := by
      rintro rfl
      rw [h.archivos, Function.update_self] at hvivo
      exact hvivo rfl
    rw [h.archivos, Function.update_of_ne hip] at hvivo hpadre ⊢
    have hne : (s.disco.archivos i).parentDirectory ≠ p := by
      intro heq
      rw [tieneHijos_iff.mpr ⟨i, hi, hvivo, heq⟩] at hhijos
      cases hhijos
    rw [Function.update_of_ne hne]
    exact ha.padre_vivo hi hvivo hpadre

theorem BorraUno.no_borraRama {p : ℕ} {r r' : ℤ} {s' : Pokedex} (h : BorraUno s p r s')
    (ha : Arbol s.disco.archivos) (hp : p < 2048)
    (hhijos : tieneHijos s.disco.archivos p = true) : ¬ BorraRama s p r' s' := by
  intro hrama
  obtain ⟨i, hhijo⟩ := tieneHijos_iff.mp hhijos
  have hborrado := hrama.borrados i hhijo.1 (.single hhijo)
  rw [h.archivos, Function.update_of_ne (ha.hijo_ne hhijo hp)] at hborrado
  exact hhijo.2.1 (congrArg OsadaFile.state hborrado)

end Borrar

theorem not_borraBien {s : Pokedex} {basura : OsadaFile} {path : Cadena} {l : Lectura} {hard : ℕ}
    (hd : BienFormado s.disco) (ha : Arbol s.disco.archivos)
    (hl : leerPath s.disco basura path = some l) (hr : l.resultado = .archivoExiste)
    (hraiz : ¬ EsRaiz path) (hhard : hard ≠ 0)
    (hhijos : tieneHijos s.disco.archivos l.posicion = true) :
    ¬ BorraBien basura path hard l.posicion s := by
  intro hbien
  obtain ⟨hp, _, _⟩ := leerPath_entrada hl hr hraiz
  obtain ⟨r, s', hrun, hrama⟩ := hbien.todo (.inl hhard)
  obtain ⟨r', s'', hrun', huno⟩ := borraUno_eliminarArchivo hd hl hr hraiz fun h => hhard h.1
  obtain ⟨rfl, rfl⟩ := Op.some_inj (hrun.symm.trans hrun')
  exact huno.no_borraRama ha hp hhijos hrama

/-- A deletion does what it is asked for if and only if it is not asked to delete what is below a
directory that has something. -/
theorem eliminarArchivo_borraBien_iff {s : Pokedex} {basura : OsadaFile} {path : Cadena}
    {l : Lectura} (hd : BienFormado s.disco) (ha : Arbol s.disco.archivos)
    (hl : leerPath s.disco basura path = some l) (hr : l.resultado = .archivoExiste)
    (hraiz : ¬ EsRaiz path) (hard : ℕ) :
    BorraBien basura path hard l.posicion s ↔
      hard = 0 ∨ tieneHijos s.disco.archivos l.posicion = false := by
  constructor
  · intro hbien
    by_cases hhard : hard = 0
    · exact .inl hhard
    · right
      cases hhijos : tieneHijos s.disco.archivos l.posicion with
      | false => rfl
      | true => exact absurd hbien (not_borraBien hd ha hl hr hraiz hhard hhijos)
  · intro hcond
    constructor
    · intro hhard hhijos
      rw [osadaEliminarArchivo_eq hl hr hraiz]
      exact eliminarArchivoInterna_hijos ⟨hhard, hhijos⟩
    · intro hsi
      have hhijos : tieneHijos s.disco.archivos l.posicion = false := by
        rcases hsi with hhard | hhijos
        · exact hcond.resolve_left hhard
        · exact hhijos
      have hborra : ¬ (hard = 0 ∧ tieneHijos s.disco.archivos l.posicion = true) := by
        rw [hhijos]
        rintro ⟨-, h⟩
        cases h
      obtain ⟨r, s', hrun, huno⟩ := borraUno_eliminarArchivo hd hl hr hraiz hborra
      exact ⟨r, s', hrun, huno.borraRama ha hhijos⟩

/-- A server whose disk has the directory `"/a"`, and the file `"/a/b"` in it. -/
@[irreducible] def pokedexConAB : Pokedex :=
  ((Operacion.crearArchivo 0 .borrado rutaAB).ejecutar
    ((Operacion.crearDirectorio 0 .borrado rutaA).ejecutar (.inicial discoChico)).2).2

theorem sano_pokedexConAB : Sano pokedexConAB ∧ Arbol pokedexConAB.disco.archivos := by
  unfold pokedexConAB
  set op := Operacion.crearDirectorio 0 .borrado rutaA
  have hinicial : Sano (.inicial discoChico) := ⟨bienFormado_discoChico, sinPendientes_inicial _⟩
  have hnombre : op.Permitida discoChico := by
    intro nombre hn
    obtain rfl : [97] = nombre := Option.some.inj hn
    decide
  -- the disk has no entry yet
  have hlibre : op.RespetaArbol discoChico := fun _ _ _ _ _ _ _ _ hvivo => absurd rfl hvivo
  have hsano := (cumple_ejecutar hinicial op hnombre).1
  have harbol := (arbol_ejecutar arbol_discoChico hinicial.sinPendientes op trivial hlibre).1
  constructor
  · exact (cumple_ejecutar hsano (.crearArchivo 0 .borrado rutaAB) trivial).1
  · exact (arbol_ejecutar harbol hsano.sinPendientes (.crearArchivo 0 .borrado rutaAB) trivial
      trivial).1

theorem borraBien_ab : BorraBien .borrado rutaAB 1 1 pokedexConAB := by
  have hl : leerPath pokedexConAB.disco .borrado rutaAB =
      some ⟨some (pokedexConAB.disco.archivos 1), .archivoExiste, 1⟩ := by decide +kernel
  obtain ⟨hsano, harbol⟩ := sano_pokedexConAB
  apply (eliminarArchivo_borraBien_iff hsano.bienFormado harbol hl rfl (by decide) 1).mpr
  exact .inr (by decide +kernel)

/-- `"/a/b"` outlives `"/a"`. -/
theorem directorio_sin_lo_de_abajo : ¬ ∀ (s : Pokedex) (basura : OsadaFile) (path : Cadena)
    (l : Lectura) (hard : ℕ), BienFormado s.disco → Arbol s.disco.archivos →
    leerPath s.disco basura path = some l → l.resultado = .archivoExiste → ¬ EsRaiz path →
      BorraBien basura path hard l.posicion s := by
  intro h
  have hl : leerPath pokedexConAB.disco .borrado rutaA =
      some ⟨some (pokedexConAB.disco.archivos 0), .archivoExiste, 0⟩ := by decide +kernel
  have hraiz : ¬ EsRaiz rutaA := by decide
  have hhijos : tieneHijos pokedexConAB.disco.archivos 0 = true := by decide +kernel
  obtain ⟨hsano, harbol⟩ := sano_pokedexConAB
  have hbien := h pokedexConAB .borrado rutaA _ 1 hsano.bienFormado harbol hl rfl hraiz
  exact not_borraBien hsano.bienFormado harbol hl rfl hraiz one_ne_zero hhijos hbien

end TpSo.Osada
