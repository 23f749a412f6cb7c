import TpSo.Entrenador.Mensajes
import TpSo.Mapa.Almacen

/-!
# What a map reads from a trainer and sends to it

The handlers of `mensajeDeEntrenadorRecibido` with the bytes of their fields, each on the state in
which the map attends the message. A trainer and its map keep to one script of who says what if
every `recv` gives its whole field and the pokemon to capture has a pokenest.
-/

namespace TpSo.Mapa

open Dialogue Rocket
open Entrenador (Pedido Leido Punto)

def bytesDePunto (p : Punto) : List UInt8 := bytesDeInt p.puntox ++ bytesDeInt p.puntoy

def cadena (nombre : Nombre) : List UInt8 := nombre ++ [0]

/-- What the map knows of a message that it has attended: what it read, and what it sent. -/
inductive Atendido where
  | obtenerPokenest (pokemon : UInt8) (coordenada : Punto)
  | moverPosicion (direccion : ℤ)
  | dioPokemon (pokemon : UInt8) (species archivo : Nombre)
  | bloqueo (pokemon : UInt8)
  | noExistePokenest (pokemon : UInt8)
  | darMedalla
  | desconectado
  | error
  deriving DecidableEq

section Funciones
variable (basura : ℕ → UInt8) (pathMedalla : Nombre) (sockfd : ℤ) (m : Estado)

def char (buffer : List UInt8) : UInt8 := buffer.headD 0

def obtenerPokenestBytes : Talker (ℤ × Atendido) := do
  let pokemon ← recvEn (sinIniciar basura 1)
  if pokemon.1 = 0 then pure (1, .error)
  else
    match m.getPcbBySockFdListos sockfd, m.getPokenestById (char pokemon.2) with
    | some _, some proximaPokenest => do
      let _ ← librocketEnviarMensaje (bytesDePunto proximaPokenest.coordenada)
      pure (2, .obtenerPokenest (char pokemon.2) proximaPokenest.coordenada)
    | _, _ => .stop

def moverPosicionBytes : Talker (ℤ × Atendido) := do
  let direccion ← recvEn (sinIniciar basura 4)
  if direccion.1 = 0 then pure (1, .error)
  else
    match m.getPcbBySockFdListos sockfd with
    | some _ => do
      let _ ← librocketEnviarMensaje (bytesDeInt 0)
      pure (0, .moverPosicion (intOfBytes direccion.2))
    | none => .stop

/-- A length and then as many bytes, the terminator with them. -/
def enviarNombre (nombre : Nombre) : Talker PUnit := do
  let _ ← librocketEnviarMensaje (bytesDeInt (nombre.length + 1))
  let _ ← librocketEnviarMensaje (cadena nombre)
  pure ⟨⟩

/-- The pokenest has a unit. -/
def entregarPokemonBytes (pokemon : UInt8) (species archivo : Nombre) : Talker (ℤ × Atendido) := do
  let _ ← librocketEnviarMensaje (bytesDeInt (-1))
  enviarNombre species
  enviarNombre archivo
  let eliminarArchivoSemaforo ← recvEn (sinIniciar basura 4)
  if eliminarArchivoSemaforo.1 = 0 then pure (1, .error)
  else pure (0, .dioPokemon pokemon species archivo)

def capturarPokemonBytes : Talker (ℤ × Atendido) := do
  let pokemon ← recvEn (sinIniciar basura 1)
  if pokemon.1 = 0 then pure (1, .error)
  else
    match m.getPcbBySockFdListos sockfd, m.getPokenestById (char pokemon.2) with
    | some _, some pokenest =>
      if pokenest.identificador ≠ char pokemon.2 then pure (3, .noExistePokenest (char pokemon.2))
      else if 0 < pokenest.cant then
        entregarPokemonBytes basura (char pokemon.2) pokenest.species
          (m.adquirirPathPokemonEnEspecifico pokenest.species)
      else do
        let _ ← librocketEnviarMensaje (bytesDeInt (-2))
        pure (1, .bloqueo (char pokemon.2))
    | _, _ => .stop

/-- After a medal and after a closed connection the trainer leaves the map, with no message. -/
def mensajeDeEntrenadorBytes : Talker (ℤ × Atendido) := do
  let tipoMensaje ← recvEn (sinIniciar basura 4)
  if intOfBytes tipoMensaje.2 = 1 then obtenerPokenestBytes basura sockfd m
  else if intOfBytes tipoMensaje.2 = 2 then moverPosicionBytes basura sockfd m
  else if intOfBytes tipoMensaje.2 = 3 then capturarPokemonBytes basura sockfd m
  else if intOfBytes tipoMensaje.2 = 4 then do
    enviarNombre pathMedalla
    pure (1, .darMedalla)
  else pure (1, .desconectado)

/-- One message after another, each in a state of the map. -/
def atenderTodo : List Estado → Talker (List (ℤ × Atendido))
  | [] => pure []
  | m :: ms => do
    let atendido ← mensajeDeEntrenadorBytes basura pathMedalla sockfd m
    let atendidos ← atenderTodo ms
    pure (atendido :: atendidos)

end Funciones

/-! ## The script of a message -/

abbrev mapa : Party := .here
abbrev entrenador : Party := .there

def guionNombre (nombre : Nombre) : Script :=
  [(mapa, bytesDeInt (nombre.length + 1)), (mapa, cadena nombre)]

/-- Who says what about a request, in a state of the map. -/
def guion (pathMedalla : Nombre) (m : Estado) : Pedido → Script
  | .conocerPokenest razaPokemon =>
    [(entrenador, bytesDeInt 1), (entrenador, [razaPokemon])] ++
      match m.getPokenestById razaPokemon with
      | some pokenest => [(mapa, bytesDePunto pokenest.coordenada)]
      | none => []
  | .moverPosicionEntrenador direccion =>
    [(entrenador, bytesDeInt 2), (entrenador, bytesDeInt direccion.1), (mapa, bytesDeInt 0)]
  | .capturarPokemon idPokemon =>
    [(entrenador, bytesDeInt 3), (entrenador, [idPokemon])] ++
      match m.getPokenestById idPokemon with
      | some pokenest =>
        if 0 < pokenest.cant then
          (mapa, bytesDeInt (-1)) :: (guionNombre pokenest.species ++
            (guionNombre (m.adquirirPathPokemonEnEspecifico pokenest.species) ++
              [(entrenador, bytesDeInt 0)]))
        else [(mapa, bytesDeInt (-2))]
      | none => []
  | .notificarFinDeObjetivos => (entrenador, bytesDeInt 4) :: guionNombre pathMedalla

def leido (pathMedalla : Nombre) (m : Estado) : Pedido → Leido
  | .conocerPokenest razaPokemon =>
    match m.getPokenestById razaPokemon with
    | some pokenest => .cordenadaPokenest (bytesDePunto pokenest.coordenada)
    | none => .otraAccion
  | .moverPosicionEntrenador _ => .movido
  | .capturarPokemon idPokemon =>
    match m.getPokenestById idPokemon with
    | some pokenest =>
      if 0 < pokenest.cant then
        .pokemon (cadena pokenest.species)
          (cadena (m.adquirirPathPokemonEnEspecifico pokenest.species))
      else .bloqueado
    | none => .otraAccion
  | .notificarFinDeObjetivos => .pathMedalla (cadena pathMedalla)

/-- What the map attends, with the result of the handler. -/
def atencion (m : Estado) : Pedido → ℤ × Atendido
  | .conocerPokenest razaPokemon =>
    match m.getPokenestById razaPokemon with
    | some pokenest => (2, .obtenerPokenest razaPokemon pokenest.coordenada)
    | none => (1, .error)
  | .moverPosicionEntrenador direccion => (0, .moverPosicion direccion.1)
  | .capturarPokemon idPokemon =>
    match m.getPokenestById idPokemon with
    | some pokenest =>
      if 0 < pokenest.cant then
        (0, .dioPokemon idPokemon pokenest.species
          (m.adquirirPathPokemonEnEspecifico pokenest.species))
      else (1, .bloqueo idPokemon)
    | none => (1, .error)
  | .notificarFinDeObjetivos => (1, .darMedalla)

/-- The pokenest that the trainer asks for is there. To know one any is enough. -/
def HayPokenest (m : Estado) : Pedido → Prop
  | .conocerPokenest _ => m.listaPokenest ≠ []
  | .capturarPokemon idPokemon => m.hayPokenest idPokemon = true
  | .moverPosicionEntrenador _ | .notificarFinDeObjetivos => True

/-- The length of a C string is an `int`. -/
def Nombre.Cabe (nombre : Nombre) : Prop := nombre.length + 1 < 2 ^ 31

/-- The trainer is ready, and the names are C strings. -/
structure Atiende (sockfd : ℤ) (m : Estado) : Prop where
  listo : ∃ p ∈ m.listaListos, m.sock p = sockfd
  species : ∀ p ∈ m.listaPokenest, p.species.Cabe
  archivos : ∀ species, ∀ archivo ∈ m.pokeNests species, Nombre.Cabe archivo

theorem cadena_ne_nil (nombre : Nombre) : cadena nombre ≠ [] :=
  List.append_ne_nil_of_right_ne_nil _ (List.cons_ne_nil _ _)

theorem bytesDePunto_ne_nil (p : Punto) : bytesDePunto p ≠ [] :=
  List.append_ne_nil_of_left_ne_nil (bytesDeInt_ne_nil _) _

theorem length_bytesDePunto (p : Punto) : (bytesDePunto p).length = Entrenador.sizeofPunto := by
  rw [bytesDePunto, List.length_append, length_bytesDeInt, length_bytesDeInt]
  rfl

theorem Atiende.pcb {sockfd : ℤ} {m : Estado} (h : Atiende sockfd m) :
    ∃ p, m.getPcbBySockFdListos sockfd = some p := by
  obtain ⟨p, hp, hs⟩ := h.listo
  unfold Estado.getPcbBySockFdListos
  cases hf : m.listaListos.find? fun p => m.sock p = sockfd with
  | some q => exact ⟨q, rfl⟩
  | none => exact absurd (by simpa using hs) (List.find?_eq_none.mp hf p hp)

theorem getPokenestById_of_ne_nil {a : Almacen} (h : a.listaPokenest ≠ []) (id : UInt8) :
    ∃ p, a.getPokenestById id = some p := by
  obtain ⟨p, hp⟩ := Option.isSome_iff_exists.mp (List.getLast?_isSome.mpr h)
  unfold Almacen.getPokenestById
  rw [hp]
  cases a.listaPokenest.find? fun p => p.identificador = id with
  | some q => exact ⟨q, rfl⟩
  | none => exact ⟨p, rfl⟩

theorem Atiende.archivo {sockfd : ℤ} {m : Estado} (h : Atiende sockfd m) (species : Nombre) :
    (m.adquirirPathPokemonEnEspecifico species).Cabe := by
  unfold Almacen.adquirirPathPokemonEnEspecifico
  cases hs : m.pokeNests species with
  | nil => simp [Nombre.Cabe]
  | cons f fs => exact h.archivos species f (by simp [hs])

/-! ## The map keeps to the script -/

section Mapa
variable {basura : ℕ → UInt8} {pathMedalla : Nombre} {sockfd : ℤ} {m : Estado}

theorem mapa_envia {d : List UInt8} (hd : d ≠ []) {whole : Bool} :
    Talks whole mapa (fun _ => True) (librocketEnviarMensaje d) [(mapa, d)] :=
  talks_enviarMensaje hd

theorem mapa_recibe {d : List UInt8} (hd : d ≠ []) {n : ℕ} (hn : d.length = n) :
    Talks true mapa (fun r => r = (d.length, d)) (recvEn (sinIniciar basura n))
      [(entrenador, d)] :=
  talks_recvEn hd (hn.trans (length_sinIniciar basura n).symm)

theorem talks_enviarNombre (nombre : Nombre) :
    Talks true mapa (fun _ => True) (enviarNombre nombre) (guionNombre nombre) := by
  apply (mapa_envia (bytesDeInt_ne_nil _)).bind_cons
  intro _ _
  apply (mapa_envia (cadena_ne_nil _)).bind_cons
  exact fun _ _ => Talks.pure trivial

theorem talks_entregarPokemon (pokemon : UInt8) (species archivo : Nombre) :
    Talks true mapa (fun r => r = (0, .dioPokemon pokemon species archivo))
      (entregarPokemonBytes basura pokemon species archivo)
      ((mapa, bytesDeInt (-1)) :: (guionNombre species ++ (guionNombre archivo ++
        [(entrenador, bytesDeInt 0)]))) := by
  apply (mapa_envia (bytesDeInt_ne_nil _)).bind_cons
  intro _ _
  apply (talks_enviarNombre species).bind
  intro _ _
  apply (talks_enviarNombre archivo).bind
  intro _ _
  apply (mapa_recibe (bytesDeInt_ne_nil 0) (length_bytesDeInt 0)).bind_cons
  intro r hr
  rw [hr]
  exact Talks.pure rfl

theorem talks_obtenerPokenest (h : Atiende sockfd m) {raza : UInt8} {pokenest : Pokenest}
    (hp : m.getPokenestById raza = some pokenest) :
    Talks true mapa (fun r => r = (2, .obtenerPokenest raza pokenest.coordenada))
      (obtenerPokenestBytes basura sockfd m)
      [(entrenador, [raza]), (mapa, bytesDePunto pokenest.coordenada)] := by
  obtain ⟨pcb, hpcb⟩ := h.pcb
  apply (mapa_recibe (List.cons_ne_nil raza []) rfl).bind_cons
  intro pokemon hpokemon
  have hchar : char [raza] = raza := rfl
  rw [hpokemon, if_neg (by simp)]
  simp only [hpcb, hchar, hp]
  apply (mapa_envia (bytesDePunto_ne_nil _)).bind_cons
  exact fun _ _ => Talks.pure rfl

theorem talks_moverPosicion (h : Atiende sockfd m) (direccion : Entero) :
    Talks true mapa (fun r => r = (0, .moverPosicion direccion.1))
      (moverPosicionBytes basura sockfd m)
      [(entrenador, bytesDeInt direccion.1), (mapa, bytesDeInt 0)] := by
  obtain ⟨pcb, hpcb⟩ := h.pcb
  apply (mapa_recibe (bytesDeInt_ne_nil _) (length_bytesDeInt _)).bind_cons
  intro leida hleida
  rw [hleida, if_neg (by simp)]
  simp only [hpcb]
  apply (mapa_envia (bytesDeInt_ne_nil 0)).bind_cons
  intro _ _
  apply Talks.pure
  rw [intOfBytes_bytesDeInt]

theorem talks_capturarPokemon (h : Atiende sockfd m) {id : UInt8} {pokenest : Pokenest}
    (hp : m.getPokenestById id = some pokenest) (hid : pokenest.identificador = id) :
    Talks true mapa (fun r => r = atencion m (.capturarPokemon id))
      (capturarPokemonBytes basura sockfd m)
      ((entrenador, [id]) ::
        if 0 < pokenest.cant then
          (mapa, bytesDeInt (-1)) :: (guionNombre pokenest.species ++
            (guionNombre (m.adquirirPathPokemonEnEspecifico pokenest.species) ++
              [(entrenador, bytesDeInt 0)]))
        else [(mapa, bytesDeInt (-2))]) := by
  obtain ⟨pcb, hpcb⟩ := h.pcb
  apply (mapa_recibe (List.cons_ne_nil id []) rfl).bind_cons
  intro pokemon hpokemon
  have hchar : char [id] = id := rfl
  rw [hpokemon, if_neg (by simp)]
  have hexiste : ¬ pokenest.identificador ≠ id := not_not.mpr hid
  simp only [hpcb, hchar, hp, atencion, if_neg hexiste]
  by_cases hcant : 0 < pokenest.cant
  · simp only [if_pos hcant]
    exact talks_entregarPokemon _ _ _
  · simp only [if_neg hcant]
    apply (mapa_envia (bytesDeInt_ne_nil _)).bind_cons
    exact fun _ _ => Talks.pure rfl

theorem talks_mensajeDeEntrenador (h : Atiende sockfd m) {pedido : Pedido}
    (hpedido : HayPokenest m pedido) :
    Talks true mapa (fun r => r = atencion m pedido)
      (mensajeDeEntrenadorBytes basura pathMedalla sockfd m) (guion pathMedalla m pedido) := by
  have htipo : ∀ tipo, Talks true mapa (fun r => r = ((bytesDeInt tipo).length, bytesDeInt tipo))
      (recvEn (sinIniciar basura 4)) [(entrenador, bytesDeInt tipo)] := fun tipo =>
    mapa_recibe (bytesDeInt_ne_nil tipo) (length_bytesDeInt tipo)
  cases pedido with
  | conocerPokenest raza =>
    obtain ⟨pokenest, hp⟩ := getPokenestById_of_ne_nil hpedido raza
    have hread : intOfBytes (bytesDeInt 1) = 1 := rfl
    simp only [guion, atencion, hp]
    apply (htipo 1).bind_cons
    intro r hr
    rw [hr, hread, if_pos rfl]
    exact talks_obtenerPokenest h hp
  | moverPosicionEntrenador direccion =>
    have hread : intOfBytes (bytesDeInt 2) = 2 := rfl
    apply (htipo 2).bind_cons
    intro r hr
    rw [hr, hread, if_neg (by decide), if_pos rfl]
    exact talks_moverPosicion h direccion
  | capturarPokemon id =>
    obtain ⟨pokenest, _, hp, hid, _⟩ := Almacen.getPokenestById_of_hay hpedido
    have hread : intOfBytes (bytesDeInt 3) = 3 := rfl
    simp only [guion, hp]
    apply (htipo 3).bind_cons
    intro r hr
    rw [hr, hread, if_neg (by decide), if_neg (by decide), if_pos rfl]
    exact talks_capturarPokemon h hp hid
  | notificarFinDeObjetivos =>
    have hread : intOfBytes (bytesDeInt 4) = 4 := rfl
    apply (htipo 4).bind_cons
    intro r hr
    rw [hr, hread, if_neg (by decide), if_neg (by decide), if_neg (by decide), if_pos rfl]
    apply (talks_enviarNombre pathMedalla).bind_last
    exact fun _ _ => Talks.pure rfl

end Mapa

/-! ## The trainer keeps to the script -/

section Entrenador
variable {basura : ℕ → UInt8} {pathMedalla : Nombre} {sockfd : ℤ} {m : Estado}

theorem entrenador_envia {d : List UInt8} (hd : d ≠ []) {whole : Bool} :
    Talks whole entrenador (fun _ => True) (librocketEnviarMensaje d) [(entrenador, d)] :=
  talks_enviarMensaje hd

theorem entrenador_recibe {buffer d : List UInt8} (hd : d ≠ []) (hn : d.length = buffer.length) :
    Talks true entrenador (fun r => r = (d.length, d)) (recvEn buffer) [(mapa, d)] :=
  talks_recvEn hd hn

theorem talks_recibirNombre {longitud : List UInt8} (hl : longitud.length = 4) {nombre : Nombre}
    (hn : nombre.Cabe) :
    Talks true entrenador (fun r => r = cadena nombre)
      (Entrenador.recibirNombre basura longitud) (guionNombre nombre) := by
  have hlen : (cadena nombre).length = nombre.length + 1 := List.length_append
  apply (entrenador_recibe (bytesDeInt_ne_nil _) ((length_bytesDeInt _).trans hl.symm)).bind_cons
  intro r hr
  have hread : intOfBytes (bytesDeInt (nombre.length + 1)) = nombre.length + 1 := by
    unfold Nombre.Cabe at hn
    exact intOfBytes_bytesDeInt ⟨nombre.length + 1, by omega, by omega⟩
  rw [hr, hread]
  unfold malloc
  rw [if_neg (by omega)]
  have hbuffer : (cadena nombre).length =
      (sinIniciar basura (Int.toNat (nombre.length + 1))).length := by
    rw [length_sinIniciar, hlen]
    omega
  apply (entrenador_recibe (cadena_ne_nil nombre) hbuffer).bind_cons
  intro r hr
  rw [hr]
  exact Talks.pure rfl

theorem talks_pedir (h : Atiende sockfd m) (hmedalla : pathMedalla.Cabe) {pedido : Pedido}
    (hpedido : HayPokenest m pedido) :
    Talks true entrenador (fun r => r = leido pathMedalla m pedido)
      (Entrenador.pedir basura pedido) (guion pathMedalla m pedido) := by
  have hcuatro : ∀ x, (bytesDeInt x).length = (sinIniciar basura 4).length := by
    intro x
    rw [length_bytesDeInt, length_sinIniciar]
  cases pedido with
  | conocerPokenest raza =>
    obtain ⟨pokenest, hp⟩ := getPokenestById_of_ne_nil hpedido raza
    simp only [guion, leido, hp]
    apply (entrenador_envia (bytesDeInt_ne_nil _)).bind_cons
    intro _ _
    apply (entrenador_envia (List.cons_ne_nil raza [])).bind_cons
    intro _ _
    have hocho : (bytesDePunto pokenest.coordenada).length =
        (sinIniciar basura Entrenador.sizeofPunto).length := by
      rw [length_bytesDePunto, length_sinIniciar]
    apply (entrenador_recibe (bytesDePunto_ne_nil _) hocho).bind_cons
    intro r hr
    rw [hr]
    exact Talks.pure rfl
  | moverPosicionEntrenador direccion =>
    apply (entrenador_envia (bytesDeInt_ne_nil _)).bind_cons
    intro _ _
    apply (entrenador_envia (bytesDeInt_ne_nil _)).bind_cons
    intro _ _
    apply (entrenador_recibe (bytesDeInt_ne_nil _) (hcuatro 0)).bind_cons
    exact fun _ _ => Talks.pure rfl
  | capturarPokemon id =>
    obtain ⟨pokenest, hmem, hp, _⟩ := Almacen.getPokenestById_of_hay hpedido
    simp only [guion, leido, hp]
    apply (entrenador_envia (bytesDeInt_ne_nil _)).bind_cons
    intro _ _
    apply (entrenador_envia (List.cons_ne_nil id [])).bind_cons
    intro _ _
    by_cases hcant : 0 < pokenest.cant
    · simp only [if_pos hcant]
      have hread : intOfBytes (bytesDeInt (-1)) = -1 := rfl
      apply (entrenador_recibe (bytesDeInt_ne_nil _) (hcuatro (-1))).bind_cons
      intro accion haccion
      rw [haccion, hread, if_pos rfl]
      apply (talks_recibirNombre (length_sinIniciar basura 4) (h.species pokenest hmem)).bind
      intro directorioPadre hdirectorio
      apply (talks_recibirNombre (length_sinIniciar basura 4) (h.archivo pokenest.species)).bind
      intro pokepath hpokepath
      apply (entrenador_envia (bytesDeInt_ne_nil _)).bind_cons
      intro _ _
      apply Talks.pure
      rw [hdirectorio, hpokepath]
    · simp only [if_neg hcant]
      have hread : intOfBytes (bytesDeInt (-2)) = -2 := rfl
      apply (entrenador_recibe (bytesDeInt_ne_nil _) (hcuatro (-2))).bind_cons
      intro accion haccion
      rw [haccion, hread, if_neg (by decide), if_pos rfl]
      exact Talks.pure rfl
  | notificarFinDeObjetivos =>
    apply (entrenador_envia (bytesDeInt_ne_nil _)).bind_cons
    intro _ _
    apply (talks_recibirNombre (length_bytesDeInt 0) hmedalla).bind_last
    intro path hpath
    rw [hpath]
    exact Talks.pure rfl

end Entrenador

/-! ## A whole conversation -/

/-- A request, and the state in which the map attends it. -/
abbrev Peticion := Pedido × Estado

section Conversacion
variable (basura basura' : ℕ → UInt8) (pathMedalla : Nombre) (sockfd : ℤ)

abbrev Resultado : Party → Type
  | .here => List (ℤ × Atendido)
  | .there => List Leido

/-- The trainer makes its requests and the map attends them, on a new connection. -/
def inicio (peticiones : List Peticion) : Config Resultado where
  party
    | .here => atenderTodo basura pathMedalla sockfd (peticiones.map Prod.snd)
    | .there => Entrenador.pedirTodo basura' (peticiones.map Prod.fst)
  wire _ := []

def SeEntienden (peticiones : List Peticion) : (p : Party) → Resultado p → Prop
  | .here, atendidos => atendidos = peticiones.map fun e => atencion e.2 e.1
  | .there, leidos => leidos = peticiones.map fun e => leido pathMedalla e.2 e.1

variable {basura basura' pathMedalla sockfd}

theorem talks_atenderTodo {peticiones : List Peticion}
    (h : ∀ e ∈ peticiones, Atiende sockfd e.2 ∧ HayPokenest e.2 e.1) :
    Talks true mapa (SeEntienden pathMedalla peticiones .here)
      (atenderTodo basura pathMedalla sockfd (peticiones.map Prod.snd))
      (peticiones.flatMap fun e => guion pathMedalla e.2 e.1) := by
  induction peticiones with
  | nil => exact Talks.pure rfl
  | cons e es ih =>
    obtain ⟨hm, hpedido⟩ := h e List.mem_cons_self
    rw [List.flatMap_cons]
    apply (talks_mensajeDeEntrenador hm hpedido).bind
    intro r hr
    apply (ih fun e he => h e (List.mem_cons_of_mem _ he)).bind_last
    intro rs hrs
    apply Talks.pure
    rw [hr, hrs]
    rfl

theorem talks_pedirTodo (hmedalla : pathMedalla.Cabe) {peticiones : List Peticion}
    (h : ∀ e ∈ peticiones, Atiende sockfd e.2 ∧ HayPokenest e.2 e.1) :
    Talks true entrenador (SeEntienden pathMedalla peticiones .there)
      (Entrenador.pedirTodo basura' (peticiones.map Prod.fst))
      (peticiones.flatMap fun e => guion pathMedalla e.2 e.1) := by
  induction peticiones with
  | nil => exact Talks.pure rfl
  | cons e es ih =>
    obtain ⟨hm, hpedido⟩ := h e List.mem_cons_self
    rw [List.flatMap_cons]
    apply (talks_pedir hm hmedalla hpedido).bind
    intro r hr
    apply (ih fun e he => h e (List.mem_cons_of_mem _ he)).bind_last
    intro rs hrs
    apply Talks.pure
    rw [hr, hrs]
    rfl

/-- If every `recv` gives its whole field and the pokenests are there, then, in whatever pieces the
bytes go out and come, the trainer and its map are never both waiting; the conversation ends, and
then each has read what the other wrote and nothing is left on the connection. -/
theorem mensajes_completos (hmedalla : pathMedalla.Cabe) {peticiones : List Peticion}
    (h : ∀ e ∈ peticiones, Atiende sockfd e.2 ∧ HayPokenest e.2 e.1) {es : List Event}
    {c : Config Resultado}
    (hrun : Run (fun c e c' => Step c e c' ∧ e.Allowed true)
      (inicio basura basura' pathMedalla sockfd peticiones) es c) :
    (Finished (SeEntienden pathMedalla peticiones) c ∨
      ∃ e c', Step c e c' ∧ e.Allowed true) ∧ Acc (fun c' c => ∃ e, Step c e c') c := by
  have hinicio : InStep true (SeEntienden pathMedalla peticiones)
      (inicio basura basura' pathMedalla sockfd peticiones) := by
    apply inStep_start (fun _ => rfl)
    intro p
    cases p with
    | here => exact talks_atenderTodo h
    | there => exact talks_pedirTodo hmedalla h
  exact ⟨(hinicio.run hrun).finished_or_step, acc_step c⟩

end Conversacion

/-! ## The state of the map -/

/-- What the map receives with a request, in the model of its state. -/
def recibido : Pedido → Recibido
  | .conocerPokenest razaPokemon => ⟨1, some razaPokemon, none, false, false⟩
  | .moverPosicionEntrenador direccion => ⟨2, none, some direccion.1, false, false⟩
  | .capturarPokemon idPokemon => ⟨3, some idPokemon, none, true, true⟩
  | .notificarFinDeObjetivos => ⟨4, none, none, false, false⟩

/-! ## A pokenest that is not there, and a field in two pieces -/

def mapaDeUno : Estado where
  listaPokenest := [⟨65, [65], ⟨3, 4⟩, 1⟩]
  directorios := []
  pokeNests _ := []
  dirDeBill _ := []
  pcb _ := ⟨7, [], ⟨0, 0⟩, ⟨65, [65], ⟨3, 4⟩, 1⟩, 0, true⟩
  recursos _ := []
  libre := 1
  listaListos := [0]
  listaBloqueados := []
  enviados := []
  quantum := 1
  batalla := false

theorem atiende_mapaDeUno : Atiende 7 mapaDeUno where
  listo := ⟨0, List.mem_singleton.mpr rfl, rfl⟩
  species p hp := by
    rw [List.mem_singleton.mp hp]
    simp [Nombre.Cabe]
  archivos _ _ hf := absurd hf List.not_mem_nil

def dosPeticiones : List Peticion :=
  [(.capturarPokemon 65, mapaDeUno), (.conocerPokenest 66, mapaDeUno)]

theorem mensajes_completos_dos :
    (Finished (SeEntienden [] dosPeticiones)
        (inicio (fun _ => 1) (fun _ => 1) [] 7 dosPeticiones) ∨
      ∃ e c', Step (inicio (fun _ => 1) (fun _ => 1) [] 7 dosPeticiones) e c' ∧
        e.Allowed true) ∧
    Acc (fun c' c => ∃ e, Step c e c') (inicio (fun _ => 1) (fun _ => 1) [] 7 dosPeticiones) := by
  apply mensajes_completos (by simp [Nombre.Cabe]) _ (.nil _)
  intro e he
  simp only [dosPeticiones, List.mem_cons, List.not_mem_nil, or_false] at he
  rcases he with rfl | rfl
  · exact ⟨atiende_mapaDeUno, rfl⟩
  · exact ⟨atiende_mapaDeUno, List.cons_ne_nil _ _⟩

/-- The direction that the map reads if its other three bytes were ones. -/
theorem no_todo_mensaje_completo :
    (∃ es c, Run Step (inicio (fun _ => 1) (fun _ => 1) [] 7
        [(.capturarPokemon 77, mapaDeUno)]) es c ∧
      (¬ ∃ e c', Step c e c') ∧ c.party mapa = .ret [(3, .noExistePokenest 77)] ∧
      ¬ Finished (SeEntienden [] [(.capturarPokemon 77, mapaDeUno)]) c) ∧
    ∃ es c, Run Step (inicio (fun _ => 1) (fun _ => 1) [] 7
        [(.moverPosicionEntrenador ⟨3, by decide⟩, mapaDeUno)]) es c ∧
      c.party mapa = .ret [(0, .moverPosicion 16843011)] ∧ c.party entrenador = .ret [.movido] ∧
      c.wire mapa = [0, 0, 0] := by
  constructor
  · have hplay : ∃ c next, [(entrenador, 4), (entrenador, 1), (mapa, 4), (mapa, 1)].foldlM play
          (inicio (fun _ => 1) (fun _ => 1) [] 7 [(.capturarPokemon 77, mapaDeUno)]) = some c ∧
        c.party mapa = .ret [(3, .noExistePokenest 77)] ∧
        c.party entrenador = .call (.recv 4) next ∧ c.wire entrenador = [] :=
      ⟨_, _, rfl, rfl, rfl, rfl⟩
    obtain ⟨c, next, hc, hmapa, hentrenador, hwire⟩ := hplay
    obtain ⟨es, hes⟩ := run_of_play hc
    refine ⟨es, c, hes, no_step ?_, hmapa, ?_⟩
    · intro p
      cases p with
      | here => exact .inl ⟨_, hmapa⟩
      | there => exact .inr ⟨⟨_, _, hentrenador⟩, hwire⟩
    · intro hfin
      obtain ⟨_, _, ha, _⟩ := hfin entrenador
      rw [hentrenador] at ha
      cases ha
  · have hplay : ∃ c, [(entrenador, 4), (entrenador, 4), (mapa, 4), (mapa, 1), (mapa, 4),
          (entrenador, 4)].foldlM play (inicio (fun _ => 1) (fun _ => 1) [] 7
            [(.moverPosicionEntrenador ⟨3, by decide⟩, mapaDeUno)]) = some c ∧
        c.party mapa = .ret [(0, .moverPosicion 16843011)] ∧
        c.party entrenador = .ret [.movido] ∧ c.wire mapa = [0, 0, 0] :=
      ⟨_, rfl, rfl, rfl, rfl⟩
    obtain ⟨c, hc, hmapa, hentrenador, hwire⟩ := hplay
    obtain ⟨es, hes⟩ := run_of_play hc
    exact ⟨es, c, hes, hmapa, hentrenador, hwire⟩

end TpSo.Mapa
