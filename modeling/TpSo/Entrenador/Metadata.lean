import TpSo.Mapa.Metadata

/-!
# The metadata of a trainer

The hoja de viaje names the maps, and each of them has its objectives under a key of its own; the
address of a map is in the metadata of the map. Of files that say who a trainer is and where the
maps are, `cargarMetadataEntrenador` makes that trainer.
-/

namespace TpSo.Entrenador

open Commons
open Mapa (Montaje)

/-- `t_mapa` of a trainer; the address is read after the rest. -/
structure TMapa where
  nombre : List UInt8
  objetivos : List (List UInt8)
  ip : Option (List UInt8)
  puerto : Option ℤ
  completado : Bool
  deriving DecidableEq

/-- `t_entrenador`. -/
structure TEntrenador where
  nombre : List UInt8
  simbolo : List UInt8
  path : List UInt8
  bloqueado : List UInt8
  totalDeAventura : List UInt8
  mapas : List TMapa
  vidas : ℤ
  intentos : ℤ
  deadlocks : ℤ
  deriving DecidableEq

def objetivoDeMapaKey (nombreMapa : List UInt8) : List UInt8 :=
  cadena "obj[" ++ nombreMapa ++ cadena "]"

/-- The first name of the hoja de viaje is copied before it is known to be there. -/
def cargarHojaDeViaje (configEntrenador : Config) : Option (List TMapa) := do
  let hojaDeViaje ← configEntrenador.configGetArrayValue (cadena "hojaDeViaje")
  if hojaDeViaje = [] then none
  else hojaDeViaje.mapM fun nombreMapa => do
    let objetivos ← configEntrenador.configGetArrayValue (objetivoDeMapaKey nombreMapa)
    some ⟨nombreMapa, objetivos, none, none, false⟩

def setEntrenador (configEntrenador : Config) (path : List UInt8) : Option TEntrenador := do
  let nombre ← configEntrenador.configGetStringValue (cadena "nombre")
  let simbolo ← configEntrenador.configGetStringValue (cadena "simbolo")
  let mapas ← cargarHojaDeViaje configEntrenador
  let vidas ← configEntrenador.configGetIntValue (cadena "vidas")
  some {
    nombre, simbolo, path, mapas, vidas
    bloqueado := cadena "00:00:00:0000"
    totalDeAventura := []
    intentos := 0
    deadlocks := 0 }

def crearConfigEntrenador (m : Montaje) (nombre path : List UInt8) : Option (Option Config) :=
  let pathAMetadata := path ++ cadena "/Entrenadores/" ++ nombre ++ cadena "/metadata"
  configCreate pathAMetadata (m.archivo pathAMetadata)

def obtenerInfoDeMetaData (m : Montaje) (path mapaActual : List UInt8) :
    Option (List UInt8 × ℤ) := do
  let pathMapa := path ++ cadena "/Mapas/" ++ mapaActual ++ cadena "/metadata"
  let configMapa ← ← configCreate pathMapa (m.archivo pathMapa)
  let ip ← configMapa.configGetStringValue (cadena "IP")
  let puerto ← configMapa.configGetIntValue (cadena "Puerto")
  some (ip, puerto)

def cargarIPyPuertoDeMapas (m : Montaje) (entrenadorActual : TEntrenador) : Option TEntrenador := do
  let mapas ← entrenadorActual.mapas.mapM fun mapa => do
    let (ip, puerto) ← obtenerInfoDeMetaData m entrenadorActual.path mapa.nombre
    some { mapa with ip := some ip, puerto := some puerto }
  some { entrenadorActual with mapas }

/-- A metadata that cannot be opened gives a `NULL`, which is then read. -/
def cargarMetadataEntrenador (m : Montaje) (nombre path : List UInt8) : Option TEntrenador := do
  let configEntrenador ← ← crearConfigEntrenador m nombre path
  let entrenadorActual ← setEntrenador configEntrenador path
  cargarIPyPuertoDeMapas m entrenadorActual

/-! ## What the files say -/

structure Ficha where
  nombre : List UInt8
  simbolo : List UInt8
  /-- The maps of the hoja de viaje, in order, with their objectives. -/
  mapas : List (List UInt8 × List (List UInt8))
  vidas : ℤ

def Ficha.pares (f : Ficha) : List (List UInt8 × List UInt8) :=
  [(cadena "nombre", f.nombre), (cadena "simbolo", f.simbolo),
    (cadena "hojaDeViaje", corchetes (f.mapas.map Prod.fst)),
    (cadena "vidas", decimalOfInt f.vidas)] ++
  f.mapas.map fun mapa => (objetivoDeMapaKey mapa.1, corchetes mapa.2)

/-- The trainer has a map to go to, and its texts can be written. -/
structure Ficha.EsValida (f : Ficha) : Prop where
  nombre : f.nombre ≠ []
  simbolo : f.simbolo ≠ []
  vidas : -2147483648 ≤ f.vidas ∧ f.vidas < 2147483648
  mapas : f.mapas ≠ []
  nombres : ∀ mapa ∈ f.mapas, EsNombre mapa.1 ∧ igual ∉ mapa.1
  objetivos : ∀ mapa ∈ f.mapas, ∀ objetivo ∈ mapa.2, EsNombre objetivo

/-- The metadata of the trainer and those of its maps are mounted. -/
structure MontaEntrenador (m : Montaje) (nombre path : List UInt8) (f : Ficha)
    (mapa : List UInt8 → Mapa.Ficha) : Prop where
  esValida : f.EsValida
  metadata : ∃ content, m.archivo (path ++ cadena "/Entrenadores/" ++ nombre ++
    cadena "/metadata") = some content ∧ Escribe content f.pares
  mapas : ∀ n ∈ f.mapas.map Prod.fst, (mapa n).EsValida ∧ ∃ content,
    m.archivo (path ++ cadena "/Mapas/" ++ n ++ cadena "/metadata") = some content ∧
      Escribe content (mapa n).pares

def Ficha.enMemoria (f : Ficha) (path : List UInt8) (mapa : List UInt8 → Mapa.Ficha) :
    TEntrenador where
  nombre := f.nombre
  simbolo := f.simbolo
  path := path
  bloqueado := cadena "00:00:00:0000"
  totalDeAventura := []
  mapas := f.mapas.map fun p => ⟨p.1, p.2, some (mapa p.1).ip, some (atoi (mapa p.1).puerto), false⟩
  vidas := f.vidas
  intentos := 0
  deadlocks := 0

section Lectura
variable {m : Montaje} {nombre path : List UInt8} {f : Ficha} {mapa : List UInt8 → Mapa.Ficha}
  {c : Config}

theorem Ficha.EsValida.escribible (h : f.EsValida) : Escribible f.pares where
  key p hp := by
    rcases List.mem_append.mp hp with hp | hp
    · have hkeys : ∀ k ∈ [cadena "nombre", cadena "simbolo", cadena "hojaDeViaje", cadena "vidas"],
          k ≠ [] ∧ igual ∉ k := by decide
      exact hkeys p.1 (List.mem_map_of_mem hp)
    · obtain ⟨mapa, hmapa, rfl⟩ := List.mem_map.mp hp
      have hsin := (h.nombres mapa hmapa).2
      refine ⟨by simp [objetivoDeMapaKey, cadena], ?_⟩
      simp only [objetivoDeMapaKey, List.mem_append, hsin, or_false, not_or]
      decide
  value p hp := by
    rcases List.mem_append.mp hp with hp | hp
    · have hvalues : ∀ v ∈ [f.nombre, f.simbolo, corchetes (f.mapas.map Prod.fst),
          decimalOfInt f.vidas], v ≠ [] := by
        simp only [List.forall_mem_cons, List.not_mem_nil, false_imp_iff, implies_true, and_true]
        exact ⟨h.nombre, h.simbolo, by simp [corchetes], decimalOfInt_ne_nil _⟩
      exact hvalues p.2 (List.mem_map_of_mem hp)
    · obtain ⟨mapa, -, rfl⟩ := List.mem_map.mp hp
      simp [corchetes]

theorem mapM_eq_some {α β : Type} {g : α → Option β} {k : α → β} {xs : List α}
    (h : ∀ x ∈ xs, g x = some (k x)) : xs.mapM g = some (xs.map k) := by
  induction xs with
  | nil => rfl
  | cons x xs ih =>
    rw [List.mapM_cons, h x List.mem_cons_self,
      ih fun y hy => h y (List.mem_cons_of_mem x hy)]
    rfl

theorem cargarHojaDeViaje_escrita (h : f.EsValida)
    (hc : ∀ p ∈ f.pares, c.configGetStringValue p.1 = some p.2) : cargarHojaDeViaje c =
      some (f.mapas.map fun mapa => ⟨mapa.1, mapa.2, none, none, false⟩) := by
  have harray : ∀ {key : List UInt8} {nombres : List (List UInt8)}, (key, corchetes nombres) ∈
      f.pares → (∀ n ∈ nombres, EsNombre n) → c.configGetArrayValue key = some nombres := by
    intro key nombres hmem hnombres
    rw [Config.configGetArrayValue, hc _ hmem, Option.bind_some,
      stringGetStringAsArray_corchetes hnombres]
  have hhoja : c.configGetArrayValue (cadena "hojaDeViaje") = some (f.mapas.map Prod.fst) := by
    refine harray (by simp [Ficha.pares]) fun n hn => ?_
    obtain ⟨mapa, hmapa, rfl⟩ := List.mem_map.mp hn
    exact (h.nombres mapa hmapa).1
  have hobjetivos : ∀ mapa ∈ f.mapas,
      c.configGetArrayValue (objetivoDeMapaKey mapa.1) = some mapa.2 := fun mapa hmapa =>
    harray (List.mem_append_right _ (List.mem_map.mpr ⟨mapa, hmapa, rfl⟩)) (h.objetivos mapa hmapa)
  unfold cargarHojaDeViaje
  rw [hhoja, Option.bind_eq_bind, Option.bind_some, if_neg (by simpa using h.mapas), List.mapM_map]
  exact mapM_eq_some fun mapa hmapa => by
    simp only [Function.comp_apply, hobjetivos mapa hmapa]
    rfl

theorem obtenerInfoDeMetaData_escrita {content : List UInt8} {n : List UInt8}
    (hvalida : (mapa n).EsValida)
    (hfile : m.archivo (path ++ cadena "/Mapas/" ++ n ++ cadena "/metadata") = some content)
    (hescribe : Escribe content (mapa n).pares) :
    obtenerInfoDeMetaData m path n = some ((mapa n).ip, atoi (mapa n).puerto) := by
  obtain ⟨c, hc, hvalor⟩ := hescribe.configCreate hvalida.escribible
    (path ++ cadena "/Mapas/" ++ n ++ cadena "/metadata")
  have hip := hvalor (cadena "IP", (mapa n).ip) (by simp [Mapa.Ficha.pares])
  have hpuerto := hvalor (cadena "Puerto", (mapa n).puerto) (by simp [Mapa.Ficha.pares])
  unfold obtenerInfoDeMetaData
  dsimp only
  rw [hfile, hc]
  simp only [Option.bind_eq_bind, Option.bind_some, hip, Config.configGetIntValue, hpuerto,
    Option.map_some]

/-- From files that say who a trainer is and what its maps are, the process of the trainer starts
with all of it: its maps in the order of the hoja de viaje, with their objectives in order, and each
at the address and the port of its own metadata. -/
theorem cargarMetadataEntrenador_escrita (h : MontaEntrenador m nombre path f mapa) :
    cargarMetadataEntrenador m nombre path = some (f.enMemoria path mapa) := by
  obtain ⟨content, hfile, hescribe⟩ := h.metadata
  obtain ⟨c, hc, hvalor⟩ := hescribe.configCreate h.esValida.escribible
    (path ++ cadena "/Entrenadores/" ++ nombre ++ cadena "/metadata")
  have hnombre := hvalor (cadena "nombre", f.nombre) (by simp [Ficha.pares])
  have hsimbolo := hvalor (cadena "simbolo", f.simbolo) (by simp [Ficha.pares])
  have hvidas := hvalor (cadena "vidas", decimalOfInt f.vidas) (by simp [Ficha.pares])
  have hset : setEntrenador c path = some { f.enMemoria path mapa with
      mapas := f.mapas.map fun mapa => ⟨mapa.1, mapa.2, none, none, false⟩ } := by
    unfold setEntrenador
    simp only [Option.bind_eq_bind, hnombre, hsimbolo, Option.bind_some,
      cargarHojaDeViaje_escrita h.esValida hvalor, Config.configGetIntValue, hvidas,
      Option.map_some, atoi_decimalOfInt h.esValida.vidas.1 h.esValida.vidas.2]
    rfl
  unfold cargarMetadataEntrenador crearConfigEntrenador
  dsimp only
  rw [hfile, hc]
  simp only [Option.bind_eq_bind, Option.bind_some, hset]
  unfold cargarIPyPuertoDeMapas
  rw [List.mapM_map, mapM_eq_some (k := fun p => (⟨p.1, p.2, some (mapa p.1).ip,
    some (atoi (mapa p.1).puerto), false⟩ : TMapa)) fun p hp => ?_]
  · rfl
  · obtain ⟨hvalida, content', hfile', hescribe'⟩ := h.mapas p.1 (List.mem_map_of_mem hp)
    have hinfo := obtenerInfoDeMetaData_escrita hvalida hfile' hescribe'
    simp only [Function.comp_apply]
    change (obtenerInfoDeMetaData m path p.1).bind _ = _
    rw [hinfo]
    rfl

end Lectura

/-! ## A small adventure -/

def fichaRed : Ficha where
  nombre := cadena "Red"
  simbolo := cadena "@"
  mapas := [(cadena "Kanto", [cadena "P", cadena "Q"]), (cadena "Johto", [])]
  vidas := 3

def fichaJohto : Mapa.Ficha := { Mapa.fichaKanto with puerto := cadena "5001", algoritmo := .rr }

def mapasDeRed (nombre : List UInt8) : Mapa.Ficha :=
  if nombre = cadena "Johto" then fichaJohto else Mapa.fichaKanto

def metadataRed : List UInt8 :=
  cadena ("nombre=Red\nsimbolo=@\nobj[Johto]=[]\nhojaDeViaje=[Kanto,Johto]\n" ++
    "obj[Kanto]=[P,Q]\nvidas=3")

def metadataJohto : List UInt8 :=
  cadena ("Batalla=1\nquantum=3\nretardo=20000\nTiempoChequeoDeadlock=30000\nIP=127.0.0.1\n" ++
    "Puerto=5001\nalgoritmo=RR")

def montajeRed : Montaje where
  archivo path :=
    if path = cadena "/mnt/Entrenadores/red/metadata" then some metadataRed
    else if path = cadena "/mnt/Mapas/Kanto/metadata" then some Mapa.metadataKanto
    else if path = cadena "/mnt/Mapas/Johto/metadata" then some metadataJohto
    else none
  directorio _ := none

theorem monta_red :
    MontaEntrenador montajeRed (cadena "red") (cadena "/mnt") fichaRed mapasDeRed where
  esValida := ⟨by decide, by decide, by decide, by decide, by decide, by decide⟩
  metadata := ⟨_, rfl, by decide +kernel, by decide +kernel, by decide +kernel⟩
  mapas n hn := by
    have hn : n = cadena "Kanto" ∨ n = cadena "Johto" := by simpa [fichaRed] using hn
    rcases hn with rfl | rfl
    · exact ⟨⟨by decide, by decide, by decide, by decide, by decide, by decide⟩, _, rfl,
        by decide +kernel, by decide +kernel, by decide +kernel⟩
    · exact ⟨⟨by decide, by decide, by decide, by decide, by decide, by decide⟩, _, rfl,
        by decide +kernel, by decide +kernel, by decide +kernel⟩

theorem cargarMetadataEntrenador_red :
    cargarMetadataEntrenador montajeRed (cadena "red") (cadena "/mnt") =
      some (fichaRed.enMemoria (cadena "/mnt") mapasDeRed) :=
  cargarMetadataEntrenador_escrita monta_red

end TpSo.Entrenador
