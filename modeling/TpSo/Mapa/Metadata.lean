import TpSo.Commons.Config
import TpSo.Mapa.Planificador

/-!
# The metadata of a map

`setMapa` reads the metadata of the map and `cargarPokenest` that of each directory of `PokeNests`.
What they load of files that say what a map and its pokenests are is that, and the pokenests are
those of `Almacen.cargarPokenest`.
-/

namespace TpSo.Mapa

open Commons
open Entrenador (Punto)

/-- A mounted file system: what is read of a file and the names that `readdir` gives, if they can be
opened. -/
structure Montaje where
  archivo : List UInt8 → Option (List UInt8)
  directorio : List UInt8 → Option (List Nombre)

/-- `t_pokenest`, with its type. -/
structure TPokenest extends Pokenest where
  tipoPokemon : List UInt8

/-- `t_mapa`. -/
structure TMapa where
  tiempoChequeoDeadlock : ℤ
  batalla : ℤ
  algoritmo : ℤ
  quantum : ℤ
  retardo : ℤ
  ip : List UInt8
  puerto : List UInt8
  pathMapa : List UInt8
  pathToMetadata : List UInt8

/-- `mapaActual` and the globals that go with it. -/
structure Configurado extends TMapa where
  retardoDeadlock : ℤ
  retardoPlanificacionMapa : ℤ
  listaPokenest : List TPokenest

def puntoYComa : UInt8 := 59

/-- With fewer than two numbers `atoi` gets a `NULL`. -/
def convertirPunto (palabra : List UInt8) : Option Punto :=
  (stringSplit palabra puntoYComa).bind fun arrayPuntos =>
    arrayPuntos[0]?.bind fun x => arrayPuntos[1]?.map fun y => ⟨atoi x, atoi y⟩

def nombreArchivoInvalido (nombreArchivo : Nombre) : Bool :=
  nombreArchivo = cadena "." ∨ nombreArchivo = cadena ".." ∨ nombreArchivo = cadena "metadata"

def cuentan (entradas : List Nombre) : List Nombre := entradas.filter (!nombreArchivoInvalido ·)

/-- The pokenest of a directory; a directory that cannot be opened adds none. -/
def obtenerCantidad (m : Montaje) (pathPokenests : List UInt8) (nombreDirectorioPokemon : Nombre)
    (listaPokenest : List TPokenest) : Option (List TPokenest) := do
  let pathDirectorioPokenest := pathPokenests ++ cadena "/" ++ nombreDirectorioPokemon
  let pathMetadataPokenest := pathDirectorioPokenest ++ cadena "/metadata"
  let configMapa ← ← configCreate pathMetadataPokenest (m.archivo pathMetadataPokenest)
  let tipoPokemon ← configMapa.configGetStringValue (cadena "Tipo")
  let nuevaCoordenada ← configMapa.configGetStringValue (cadena "Posicion")
  let identificadorPokemon ← configMapa.configGetStringValue (cadena "Identificador")
  let coordenada ← convertirPunto nuevaCoordenada
  match m.directorio pathDirectorioPokenest with
  | none => some listaPokenest
  | some entradas => some (listaPokenest ++ [{
      identificador := identificadorPokemon.headD 0
      species := nombreDirectorioPokemon
      coordenada
      cant := (cuentan entradas).length
      tipoPokemon }])

def cargarPokenest (m : Montaje) (mapaActual : TMapa) (listaPokenest : List TPokenest) :
    Option (List TPokenest) :=
  let path := mapaActual.pathMapa ++ cadena "/PokeNests/"
  match m.directorio path with
  | none => some listaPokenest
  | some entradas => (cuentan entradas).foldlM (fun lista d => obtenerCantidad m path d lista)
      listaPokenest

/-- A configuration that is `NULL` is only logged. -/
def setMapa (m : Montaje) (configMapa : Option Config) (unMapa : Configurado) :
    Option Configurado :=
  match configMapa with
  | none => some unMapa
  | some configMapa => do
    let batalla ← configMapa.configGetIntValue (cadena "Batalla")
    let quantum ← configMapa.configGetIntValue (cadena "quantum")
    let retardo ← configMapa.configGetIntValue (cadena "retardo")
    let tiempoChequeoDeadlock ← configMapa.configGetIntValue (cadena "TiempoChequeoDeadlock")
    let ip ← configMapa.configGetStringValue (cadena "IP")
    let puerto ← configMapa.configGetStringValue (cadena "Puerto")
    let algoritmo ← configMapa.configGetStringValue (cadena "algoritmo")
    let unMapa := { unMapa with
      batalla, quantum, retardo, tiempoChequeoDeadlock, ip, puerto
      retardoDeadlock := tiempoChequeoDeadlock.tdiv 10000
      retardoPlanificacionMapa := retardo.tdiv 10000 }
    let unMapa := if algoritmo = cadena "RR" then { unMapa with algoritmo := 1 } else unMapa
    let unMapa := if algoritmo = cadena "SRDF" then { unMapa with algoritmo := 2 } else unMapa
    let listaPokenest ← cargarPokenest m unMapa.toTMapa unMapa.listaPokenest
    some { unMapa with listaPokenest }

def crearConfigMapa (m : Montaje) (nombre puntoMontaje : List UInt8) (mapaActual : Configurado) :
    Option (Option Config × Configurado) :=
  let mapaActual := { mapaActual with
    pathMapa := puntoMontaje ++ cadena "/Mapas/" ++ nombre
    pathToMetadata := puntoMontaje ++ cadena "/Mapas/" ++ nombre ++ cadena "/metadata" }
  (configCreate mapaActual.pathToMetadata (m.archivo mapaActual.pathToMetadata)).map (·, mapaActual)

/-- At the start the configuration is destroyed in the end, which a `NULL` does not survive. -/
def cargarConfiguracionMapa (m : Montaje) (nombre puntoMontaje : List UInt8)
    (mapaActual : Configurado) : Option Configurado := do
  let (configMapa, mapaActual) ← crearConfigMapa m nombre puntoMontaje mapaActual
  let mapaActual ← setMapa m configMapa mapaActual
  if configMapa.isSome then some mapaActual else none

def recargarConfiguracionMetadataMapa (m : Montaje) (mapaActual : Configurado) :
    Option Configurado := do
  let configMapa ← configCreate mapaActual.pathToMetadata (m.archivo mapaActual.pathToMetadata)
  setMapa m configMapa mapaActual

/-! ## What the files say -/

def Algoritmo.nombre : Algoritmo → List UInt8
  | .rr => cadena "RR"
  | .srdf => cadena "SRDF"

/-- The number of an algorithm in `t_mapa`. -/
def Algoritmo.numero : Algoritmo → ℤ
  | .rr => 1
  | .srdf => 2

structure Ficha where
  batalla : ℤ
  quantum : ℤ
  retardo : ℤ
  tiempoChequeoDeadlock : ℤ
  ip : List UInt8
  puerto : List UInt8
  algoritmo : Algoritmo

/-- The numbers are values of an `int`, and no text is empty. -/
structure Ficha.EsValida (f : Ficha) : Prop where
  batalla : -2147483648 ≤ f.batalla ∧ f.batalla < 2147483648
  quantum : -2147483648 ≤ f.quantum ∧ f.quantum < 2147483648
  retardo : -2147483648 ≤ f.retardo ∧ f.retardo < 2147483648
  tiempoChequeoDeadlock :
    -2147483648 ≤ f.tiempoChequeoDeadlock ∧ f.tiempoChequeoDeadlock < 2147483648
  ip : f.ip ≠ []
  puerto : f.puerto ≠ []

def Ficha.pares (f : Ficha) : List (List UInt8 × List UInt8) :=
  [(cadena "Batalla", decimalOfInt f.batalla), (cadena "quantum", decimalOfInt f.quantum),
    (cadena "retardo", decimalOfInt f.retardo),
    (cadena "TiempoChequeoDeadlock", decimalOfInt f.tiempoChequeoDeadlock), (cadena "IP", f.ip),
    (cadena "Puerto", f.puerto), (cadena "algoritmo", f.algoritmo.nombre)]

def escribirPunto (p : Punto) : List UInt8 :=
  decimalOfInt p.puntox ++ puntoYComa :: decimalOfInt p.puntoy

/-- What the metadata of a pokenest of a type says. -/
def Directorio.pares (d : Directorio) (tipo : List UInt8) : List (List UInt8 × List UInt8) :=
  [(cadena "Tipo", tipo), (cadena "Posicion", escribirPunto d.coordenada),
    (cadena "Identificador", [d.identificador])]

/-- The directory of a pokenest, with its metadata and its files. -/
structure MontaPokenest (m : Montaje) (path : List UInt8) (a : Almacen) (d : Directorio)
    (tipo : List UInt8) : Prop where
  metadata : ∃ content, m.archivo (path ++ cadena "/" ++ d.species ++ cadena "/metadata") =
    some content ∧ Escribe content (d.pares tipo)
  archivos : ∃ entradas, m.directorio (path ++ cadena "/" ++ d.species) = some entradas ∧
    cuentan entradas = a.pokeNests d.species
  tipo : tipo ≠ []
  coordenada : d.coordenada.EnRango

/-- The pokenests of a map are those of the store, each of its type. -/
structure Monta (m : Montaje) (pathMapa : List UInt8) (a : Almacen) (tipo : Nombre → List UInt8) :
    Prop where
  directorios : ∃ entradas, m.directorio (pathMapa ++ cadena "/PokeNests/") = some entradas ∧
    cuentan entradas = a.directorios.map Directorio.species
  pokenest : ∀ d ∈ a.directorios,
    MontaPokenest m (pathMapa ++ cadena "/PokeNests/") a d (tipo d.species)

section Lectura
variable {m : Montaje} {path pathMapa tipo : List UInt8} {a : Almacen} {d : Directorio} {f : Ficha}
  {tipos : Nombre → List UInt8} {s : Configurado}

/-- The keys of the metadata of a map, and of those of a pokenest. -/
def clavesDeMapa : List (List UInt8) :=
  [cadena "Batalla", cadena "quantum", cadena "retardo", cadena "TiempoChequeoDeadlock",
    cadena "IP", cadena "Puerto", cadena "algoritmo"]

def clavesDePokenest : List (List UInt8) :=
  [cadena "Tipo", cadena "Posicion", cadena "Identificador"]

/-- Keys that do not depend on the values. -/
theorem escribible_of_claves {pares : List (List UInt8 × List UInt8)}
    (claves : List (List UInt8)) (h : pares.map Prod.fst = claves)
    (hkey : ∀ k ∈ claves, k ≠ [] ∧ igual ∉ k) (hvalue : ∀ p ∈ pares, p.2 ≠ []) :
    Escribible pares where
  key p hp := hkey p.1 (h ▸ List.mem_map_of_mem hp)
  value := hvalue

theorem Ficha.EsValida.escribible (h : f.EsValida) : Escribible f.pares := by
  refine escribible_of_claves clavesDeMapa rfl (by decide) ?_
  have hnombre : f.algoritmo.nombre ≠ [] := by cases f.algoritmo <;> decide
  have hint : ∀ x, decimalOfInt x ≠ [] := decimalOfInt_ne_nil
  simp only [Ficha.pares, List.forall_mem_cons, List.not_mem_nil, false_imp_iff, implies_true,
    and_true]
  exact ⟨hint _, hint _, hint _, hint _, h.ip, h.puerto, hnombre⟩

theorem escribible_pokenest (d : Directorio) (h : tipo ≠ []) : Escribible (d.pares tipo) := by
  refine escribible_of_claves clavesDePokenest rfl (by decide) ?_
  simp only [Directorio.pares, List.forall_mem_cons, List.not_mem_nil, false_imp_iff, implies_true,
    and_true]
  exact ⟨h, by simp [escribirPunto], by simp⟩

theorem convertirPunto_escribirPunto {p : Punto} (h : p.EnRango) :
    convertirPunto (escribirPunto p) = some p := by
  have hwords : ∀ w ∈ [decimalOfInt p.puntox, decimalOfInt p.puntoy],
      w ≠ [] ∧ puntoYComa ∉ w := by
    have hint : ∀ x, decimalOfInt x ≠ [] ∧ puntoYComa ∉ decimalOfInt x := fun x =>
      ⟨decimalOfInt_ne_nil x, not_mem_decimalOfInt (by decide) (by decide)⟩
    simp only [List.forall_mem_cons, List.not_mem_nil, false_imp_iff, implies_true, and_true]
    exact ⟨hint _, hint _⟩
  have htext : escribirPunto p =
      [puntoYComa].intercalate [decimalOfInt p.puntox, decimalOfInt p.puntoy] := by
    rw [List.intercalate_cons_cons, List.intercalate_singleton, escribirPunto]
    simp
  rw [convertirPunto, htext, stringSplit_eq, if_neg (not_stuck_intercalate hwords),
    words_intercalate hwords]
  simp [atoi_decimalOfInt h.1.1 h.1.2, atoi_decimalOfInt h.2.1 h.2.2]

/-- The pokenest of a directory, as the store has it. -/
def Directorio.pokenest (d : Directorio) (a : Almacen) (tipo : List UInt8) : TPokenest :=
  ⟨⟨d.identificador, d.species, d.coordenada, (a.pokeNests d.species).length⟩, tipo⟩

theorem obtenerCantidad_escrita (h : MontaPokenest m path a d tipo) (lista : List TPokenest) :
    obtenerCantidad m path d.species lista = some (lista ++ [d.pokenest a tipo]) := by
  obtain ⟨content, hfile, hescribe⟩ := h.metadata
  obtain ⟨entradas, hdir, hcuentan⟩ := h.archivos
  obtain ⟨c, hc, hvalor⟩ := hescribe.configCreate (escribible_pokenest d h.tipo)
    (path ++ cadena "/" ++ d.species ++ cadena "/metadata")
  simp only [Directorio.pares, List.forall_mem_cons] at hvalor
  obtain ⟨htipo, hposicion, hidentificador, -⟩ := hvalor
  unfold obtenerCantidad
  dsimp only
  rw [hfile, hc]
  simp only [Option.bind_eq_bind, Option.bind_some, htipo, hposicion, hidentificador, hdir,
    convertirPunto_escribirPunto h.coordenada, hcuentan]
  rfl

theorem cargarPokenest_escrita {mapaActual : TMapa} (h : Monta m mapaActual.pathMapa a tipos)
    (lista : List TPokenest) : cargarPokenest m mapaActual lista =
      some (lista ++ a.directorios.map fun d => d.pokenest a (tipos d.species)) := by
  obtain ⟨entradas, hdir, hcuentan⟩ := h.directorios
  unfold cargarPokenest
  dsimp only
  rw [hdir]
  dsimp only
  rw [hcuentan, List.foldlM_map]
  -- one directory after another
  have hfold : ∀ (ds : List Directorio) (lista : List TPokenest), (∀ d ∈ ds, d ∈ a.directorios) →
      ds.foldlM (fun lista d => obtenerCantidad m (mapaActual.pathMapa ++ cadena "/PokeNests/")
        d.species lista) lista =
          some (lista ++ ds.map fun d => d.pokenest a (tipos d.species)) := by
    intro ds
    induction ds with
    | nil => exact fun lista _ => by simp
    | cons d ds ih =>
      intro lista hds
      rw [List.foldlM_cons, obtenerCantidad_escrita (h.pokenest d (hds d List.mem_cons_self)),
        Option.bind_eq_bind, Option.bind_some, ih _ fun e he => hds e (List.mem_cons_of_mem d he)]
      simp
  exact hfold a.directorios lista fun d hd => hd

def Ficha.enMemoria (f : Ficha) (pathMapa : List UInt8) : TMapa where
  tiempoChequeoDeadlock := f.tiempoChequeoDeadlock
  batalla := f.batalla
  algoritmo := f.algoritmo.numero
  quantum := f.quantum
  retardo := f.retardo
  ip := f.ip
  puerto := f.puerto
  pathMapa := pathMapa
  pathToMetadata := pathMapa ++ cadena "/metadata"

structure MontaMapa (m : Montaje) (pathMapa : List UInt8) (f : Ficha) (a : Almacen)
    (tipo : Nombre → List UInt8) : Prop extends Monta m pathMapa a tipo where
  esValida : f.EsValida
  metadata : ∃ content, m.archivo (pathMapa ++ cadena "/metadata") = some content ∧
    Escribe content f.pares

/-- The configuration has been loaded from the files, and these are the pokenests in memory. -/
structure ConFicha (s : Configurado) (pathMapa : List UInt8) (f : Ficha) (l : List Pokenest) :
    Prop where
  mapa : s.toTMapa = f.enMemoria pathMapa
  retardoDeadlock : s.retardoDeadlock = f.tiempoChequeoDeadlock.tdiv 10000
  retardoPlanificacionMapa : s.retardoPlanificacionMapa = f.retardo.tdiv 10000
  listaPokenest : s.listaPokenest.map TPokenest.toPokenest = l

/-- `cargarPokenest` where the list in memory is another one than that of the store. -/
def Almacen.agregar (a : Almacen) (l : List Pokenest) : List Pokenest :=
  { a with listaPokenest := l }.cargarPokenest.listaPokenest

theorem setMapa_escrita {c : Config} (h : MontaMapa m pathMapa f a tipos)
    (hc : ∀ p ∈ f.pares, c.configGetStringValue p.1 = some p.2) (hpath : s.pathMapa = pathMapa)
    (hmetadata : s.pathToMetadata = pathMapa ++ cadena "/metadata") :
    ∃ s', setMapa m (some c) s = some s' ∧
      ConFicha s' pathMapa f (a.agregar (s.listaPokenest.map TPokenest.toPokenest)) := by
  simp only [Ficha.pares, List.forall_mem_cons] at hc
  obtain ⟨hbatalla, hquantum, hretardo, htiempo, hip, hpuerto, halgoritmo, -⟩ := hc
  have hint : ∀ {key : List UInt8} {x : ℤ}, -2147483648 ≤ x ∧ x < 2147483648 →
      c.configGetStringValue key = some (decimalOfInt x) → c.configGetIntValue key = some x := by
    intro key x hx hkey
    rw [Config.configGetIntValue, hkey, Option.map_some, atoi_decimalOfInt hx.1 hx.2]
  have hnests : ∀ t : TMapa, t.pathMapa = pathMapa → ∀ lista, cargarPokenest m t lista =
      some (lista ++ a.directorios.map fun d => d.pokenest a (tipos d.species)) := fun t ht lista =>
    cargarPokenest_escrita (ht.symm ▸ h.toMonta) lista
  have hmap : ∀ lista : List TPokenest,
      (lista ++ a.directorios.map fun d => d.pokenest a (tipos d.species)).map
        TPokenest.toPokenest = a.agregar (lista.map TPokenest.toPokenest) := by
    intro lista
    rw [List.map_append, List.map_map]
    rfl
  unfold setMapa
  dsimp only
  rw [hint h.esValida.batalla hbatalla, hint h.esValida.quantum hquantum,
    hint h.esValida.retardo hretardo, hint h.esValida.tiempoChequeoDeadlock htiempo, hip, hpuerto,
    halgoritmo]
  simp only [Option.bind_eq_bind, Option.bind_some]
  have hrr : cadena "RR" ≠ cadena "SRDF" := by decide
  cases halg : f.algoritmo with
  | rr =>
    rw [Algoritmo.nombre, if_pos rfl, if_neg hrr, hnests, Option.bind_some]
    · refine ⟨_, rfl, ?_, rfl, rfl, hmap _⟩
      simp only [Ficha.enMemoria, halg, Algoritmo.numero, hpath, hmetadata]
    · exact hpath
  | srdf =>
    rw [Algoritmo.nombre, if_neg (Ne.symm hrr), if_pos rfl, hnests, Option.bind_some]
    · refine ⟨_, rfl, ?_, rfl, rfl, hmap _⟩
      simp only [Ficha.enMemoria, halg, Algoritmo.numero, hpath, hmetadata]
    · exact hpath

/-- The start, from the first files, and a reload from each of the next ones. -/
def cargas (nombre puntoMontaje : List UInt8) (s : Configurado) : List Montaje → Option Configurado
  | [] => some s
  | m :: ms => do
    let s ← cargarConfiguracionMapa m nombre puntoMontaje s
    ms.foldlM (fun s m => recargarConfiguracionMetadataMapa m s) s

/-- The files at a moment, and what they say. -/
structure Archivos where
  montaje : Montaje
  ficha : Ficha
  almacen : Almacen
  tipo : Nombre → List UInt8

def Archivos.Dicen (x : Archivos) (pathMapa : List UInt8) : Prop :=
  MontaMapa x.montaje pathMapa x.ficha x.almacen x.tipo

/-- The pokenests in memory after the files have been loaded one after another. -/
def pokenestsTras (xs : List Archivos) (l : List Pokenest) : List Pokenest :=
  xs.foldl (fun l x => x.almacen.agregar l) l

theorem MontaMapa.configCreate (h : MontaMapa m pathMapa f a tipos) :
    ∃ c, configCreate (pathMapa ++ cadena "/metadata") (m.archivo (pathMapa ++ cadena "/metadata")) =
      some (some c) ∧ ∀ p ∈ f.pares, c.configGetStringValue p.1 = some p.2 := by
  obtain ⟨content, hfile, hescribe⟩ := h.metadata
  rw [hfile]
  exact hescribe.configCreate h.esValida.escribible _

theorem cargarConfiguracionMapa_escrita {nombre puntoMontaje : List UInt8}
    (h : MontaMapa m (puntoMontaje ++ cadena "/Mapas/" ++ nombre) f a tipos) (s : Configurado) :
    ∃ s', cargarConfiguracionMapa m nombre puntoMontaje s = some s' ∧
      ConFicha s' (puntoMontaje ++ cadena "/Mapas/" ++ nombre) f
        (a.agregar (s.listaPokenest.map TPokenest.toPokenest)) := by
  obtain ⟨c, hc, hvalor⟩ := h.configCreate
  obtain ⟨s', hs', hcargado⟩ := setMapa_escrita (s := { s with
    pathMapa := puntoMontaje ++ cadena "/Mapas/" ++ nombre
    pathToMetadata := puntoMontaje ++ cadena "/Mapas/" ++ nombre ++ cadena "/metadata" })
    h hvalor rfl rfl
  refine ⟨s', ?_, hcargado⟩
  unfold cargarConfiguracionMapa crearConfigMapa
  dsimp only
  rw [hc, Option.map_some, Option.bind_eq_bind, Option.bind_some, hs']
  rfl

theorem recargarConfiguracionMetadataMapa_escrita {f' : Ficha} {l : List Pokenest}
    (h : MontaMapa m pathMapa f a tipos) (hs : ConFicha s pathMapa f' l) :
    ∃ s', recargarConfiguracionMetadataMapa m s = some s' ∧ ConFicha s' pathMapa f (a.agregar l) := by
  obtain ⟨c, hc, hvalor⟩ := h.configCreate
  have hmetadata : s.pathToMetadata = pathMapa ++ cadena "/metadata" := by
    rw [hs.mapa, Ficha.enMemoria]
  obtain ⟨s', hs', hcargado⟩ := setMapa_escrita h hvalor (by rw [hs.mapa, Ficha.enMemoria]) hmetadata
  rw [hs.listaPokenest] at hcargado
  refine ⟨s', ?_, hcargado⟩
  rw [recargarConfiguracionMetadataMapa, hmetadata, hc, Option.bind_eq_bind, Option.bind_some, hs']

/-- The reloads. The induction is on the files, the last ones first. -/
theorem recargas_escritas {x : Archivos} {l : List Pokenest} (hs : ConFicha s pathMapa x.ficha l)
    (xs : List Archivos) (hdicen : ∀ y ∈ xs, y.Dicen pathMapa) :
    ∃ s', (xs.map Archivos.montaje).foldlM (fun s m => recargarConfiguracionMetadataMapa m s) s =
      some s' ∧ ConFicha s' pathMapa (xs.getLastD x).ficha (pokenestsTras xs l) := by
  induction xs generalizing s x l with
  | nil => exact ⟨s, rfl, hs⟩
  | cons y ys ih =>
    obtain ⟨s₁, h₁, hs₁⟩ := recargarConfiguracionMetadataMapa_escrita
      (hdicen y List.mem_cons_self) hs
    obtain ⟨s', hs', hfin⟩ := ih hs₁ fun z hz => hdicen z (List.mem_cons_of_mem y hz)
    refine ⟨s', ?_, ?_⟩
    · rw [List.map_cons, List.foldlM_cons, h₁]
      exact hs'
    · rw [List.getLastD_cons]
      exact hfin

end Lectura

/-! ## A small map -/

def fichaKanto : Ficha where
  batalla := 1
  quantum := 3
  retardo := 20000
  tiempoChequeoDeadlock := 30000
  ip := cadena "127.0.0.1"
  puerto := cadena "5000"
  algoritmo := .srdf

def metadataKanto : List UInt8 :=
  cadena ("IP=127.0.0.1\nPuerto=5000\n# RR o SRDF\nalgoritmo=SRDF\nquantum=3\nBatalla=1\n" ++
    "retardo=20000\nTiempoChequeoDeadlock=30000\n")

/-- The files of the map, with the files of its only pokenest. -/
def montajeKanto (metadata : List UInt8) (pikachus : List Nombre) : Montaje where
  archivo path :=
    if path = cadena "/mnt/Mapas/Kanto/metadata" then some metadata
    else if path = cadena "/mnt/Mapas/Kanto/PokeNests//Pikachu/metadata" then
      some (cadena "Tipo=Electrico\nDebil=Tierra\nPosicion=5;3\nIdentificador=P\n")
    else none
  directorio path :=
    if path = cadena "/mnt/Mapas/Kanto/PokeNests/" then
      some [cadena ".", cadena "Pikachu", cadena ".."]
    else if path = cadena "/mnt/Mapas/Kanto/PokeNests//Pikachu" then
      some ([cadena ".", cadena "..", cadena "metadata"] ++ pikachus)
    else none

def almacenKanto (pikachus : List Nombre) : Almacen where
  listaPokenest := []
  directorios := [⟨cadena "Pikachu", 80, ⟨5, 3⟩⟩]
  pokeNests _ := pikachus
  dirDeBill _ := []

def primerosDeKanto : Archivos where
  montaje := montajeKanto metadataKanto [cadena "Pikachu001.dat"]
  ficha := fichaKanto
  almacen := almacenKanto [cadena "Pikachu001.dat"]
  tipo _ := cadena "Electrico"

/-- Another algorithm, a property that nobody reads and one pokemon more. -/
def segundosDeKanto : Archivos where
  montaje := montajeKanto (cadena ("region=Kanto\nIP=127.0.0.1\nPuerto=5000\nalgoritmo=RR\n" ++
    "quantum=2\nBatalla=0\nretardo=20000\nTiempoChequeoDeadlock=30000\n"))
      [cadena "Pikachu001.dat", cadena "Pikachu002.dat"]
  ficha := { fichaKanto with algoritmo := .rr, quantum := 2, batalla := 0 }
  almacen := almacenKanto [cadena "Pikachu001.dat", cadena "Pikachu002.dat"]
  tipo _ := cadena "Electrico"

theorem monta_kanto {metadata : List UInt8} {pikachus : List Nombre} {f : Ficha} (hf : f.EsValida)
    (hescribe : Escribe metadata f.pares) (hcuentan : cuentan pikachus = pikachus) :
    MontaMapa (montajeKanto metadata pikachus) (cadena "/mnt/Mapas/Kanto") f (almacenKanto pikachus)
      fun _ => cadena "Electrico" where
  directorios := ⟨_, rfl, show cuentan [cadena ".", cadena "Pikachu", cadena ".."] =
    [cadena "Pikachu"] by decide⟩
  pokenest d hd := by
    obtain rfl := List.mem_singleton.mp hd
    refine ⟨⟨_, rfl, by decide +kernel, by decide +kernel, by decide +kernel⟩, ⟨_, rfl, ?_⟩,
      by decide, by decide, by decide⟩
    rw [cuentan, List.filter_append]
    exact hcuentan
  esValida := hf
  metadata := ⟨_, rfl, hescribe⟩

theorem dicen_kanto : ∀ x ∈ [primerosDeKanto, segundosDeKanto],
    x.Dicen (cadena "/mnt" ++ cadena "/Mapas/" ++ cadena "Kanto") := by
  intro x hx
  rcases List.mem_pair.mp hx with rfl | rfl
  · exact monta_kanto ⟨by decide, by decide, by decide, by decide, by decide, by decide⟩
      ⟨by decide +kernel, by decide +kernel, by decide +kernel⟩ (by decide)
  · exact monta_kanto ⟨by decide, by decide, by decide, by decide, by decide, by decide⟩
      ⟨by decide +kernel, by decide +kernel, by decide +kernel⟩ (by decide)

end TpSo.Mapa
