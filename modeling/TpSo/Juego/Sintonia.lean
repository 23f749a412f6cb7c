import TpSo.Juego.Jugadores
import TpSo.Mapa.Puntos

/-!
# Where the trainers are

The map keeps the position of a trainer in its `t_pcb`, and the trainer keeps its own. A detection
copies the `t_pcb` of the blocked trainers, and after it `moverPosicion` may find one copy at one
turn and another at the next. `Acorde` is the invariant of the runs in which whoever moves has one
`t_pcb` in the lists.
-/

namespace TpSo.Juego

open Function (update)
open Entrenador (Aventura Viaje)
open Mapa

namespace Mundo

variable (s : Mundo)

def ajustar (a : Ajustes) : Mundo := { s with partida := s.partida.ajustar a }

/-- Every `t_pcb` in the lists has the position of its trainer, if the trainer has read what it was
sent. -/
def EnSintonia : Prop :=
  ∀ p ∈ s.mapa.enListas, (s.jugador (s.mapa.sock p)).buzon = [] →
    (s.mapa.pcb p).punto = (s.jugador (s.mapa.sock p)).aventura.posicionDelEntrenador

/-- The socket of a `t_pcb` of the lists is not given to another trainer, and the trainer in turn
moves only if no other `t_pcb` of the lists has its socket. -/
def Sintoniza : Accion → Prop
  | .conecta sockfd _ _ _ => ∀ p ∈ s.mapa.enListas, s.mapa.sock p ≠ sockfd
  | .atiende => ∀ p ∈ s.turno.de,
      (s.jugador (s.mapa.sock p)).aventura.estado = .enCamino →
        ∀ q ∈ s.mapa.enListas, s.mapa.sock q = s.mapa.sock p → q = p
  | _ => True

instance : ∀ e : Accion, Decidable (s.Sintoniza e)
  | .conecta _ _ _ _ => inferInstanceAs (Decidable (∀ p ∈ s.mapa.enListas, _))
  | .atiende => inferInstanceAs (Decidable (∀ p ∈ s.turno.de, _ → _))
  | .lee _ => .isTrue trivial
  | .empieza => .isTrue trivial
  | .corta _ => .isTrue trivial
  | .termina => .isTrue trivial
  | .detecta _ => .isTrue trivial
  | .recarga => .isTrue trivial

end Mundo

/-- A step in which whoever moves has one `t_pcb`. -/
def PasoEnSintonia (f : Fabrica) (s : Mundo) (e : Ajustes × Accion) (s' : Mundo) : Prop :=
  PasoJuego f s e s' ∧ s.Sintoniza e.2

/-! ## What holds in every run -/

structure Acorde (s : Mundo) : Prop where
  fresca : Fresca s.partida
  listo : s.partida.Listo
  /-- Where every trainer comes to once it has read what it was sent. -/
  puntos : ∀ p ∈ s.mapa.enListas, ∀ a ∈ (s.jugador (s.mapa.sock p)).asentada,
    (s.mapa.pcb p).punto = a.posicionDelEntrenador

namespace Acorde

variable {s : Mundo}

theorem comienza (h : s.partida.Comienza) : Acorde s := by
  refine ⟨.comienza h, ?_, ?_⟩
  · intro _ p hp
    rw [h.turno] at hp
    cases hp
  · intro p hp
    rw [Estado.enListas, Mundo.mapa, h.listaListos, h.listaBloqueados] at hp
    cases hp

theorem enSintonia (h : Acorde s) : s.EnSintonia := fun p hp hb =>
  h.puntos p hp _ (Jugador.asentada_nil hb)

theorem lee {k : ℤ} {j : Jugador} (h : Acorde s) (hj : (s.jugador k).leer = some j) :
    Acorde { s with jugador := update s.jugador k j } := by
  refine ⟨h.fresca, h.listo, fun p hp a ha => h.puntos p hp a ?_⟩
  change a ∈ (update s.jugador k j (s.mapa.sock p)).asentada at ha
  by_cases hk : s.mapa.sock p = k
  · rw [hk] at ha ⊢
    rwa [Function.update_self, Jugador.asentada_leer hj] at ha
  · rwa [Function.update_of_ne hk] at ha

theorem correo_of_enviados {partida : Partida} {es : List (ℤ × Envio)}
    (h : partida.mapa.enviados = s.mapa.enviados ++ es) (k : ℤ) :
    (s.entregar partida).jugador k = (s.jugador k).recibir (correo k es) := by
  rw [Mundo.entregar, h, List.drop_left]

/-- The trainer that connects is where its `t_pcb` says, and nobody else has its socket. -/
theorem conecta {sockfd : ℤ} {path : Nombre} {objetivos : List UInt8} {globales : Aventura}
    {partida : Partida} (h : Acorde s)
    (hlibre : ∀ p ∈ s.mapa.enListas, s.mapa.sock p ≠ sockfd)
    (hc : Conectado s.mapa sockfd partida.mapa) (hfresca : Fresca partida)
    (hlisto : partida.Listo) :
    Acorde ((s.entregar partida).sentar (.conecta sockfd path objetivos globales)) := by
  refine ⟨hfresca, hlisto, ?_⟩
  intro p hp a ha
  change p ∈ partida.mapa.enListas at hp
  change a ∈ (update (s.entregar partida).jugador sockfd _ (partida.mapa.sock p)).asentada at ha
  change (partida.mapa.pcb p).punto = _
  have hviejo : p ∈ s.mapa.enListas ∨ p = s.mapa.libre := by
    rw [Estado.enListas, hc.listaListos, hc.listaBloqueados] at hp
    rw [Estado.enListas]
    simp only [List.mem_append, List.mem_singleton] at hp ⊢
    tauto
  cases hviejo with
  | inl hp =>
    have hlt : p < s.mapa.libre := h.fresca.enListas p hp
    have hsock : partida.mapa.sock p = s.mapa.sock p := congrArg Pcb.sockfd (hc.pcb p hlt)
    have hnada : partida.mapa.enviados = s.mapa.enviados ++ [] := by
      rw [hc.enviados, List.append_nil]
    rw [hsock, Function.update_of_ne (hlibre p hp), correo_of_enviados hnada] at ha
    rw [hc.pcb p hlt]
    apply h.puntos p hp
    rwa [Jugador.recibir, correo, List.filter_nil, List.map_nil, List.append_nil] at ha
  | inr hp =>
    rw [hp, hc.sock, Function.update_self] at ha
    obtain rfl := Option.some.inj ha
    rw [hp, hc.punto]
    rfl

theorem queda {partida : Partida} (h : Acorde s) (hq : Queda s.mapa partida.mapa)
    (hfresca : Fresca partida) (hlisto : partida.Listo) : Acorde (s.entregar partida) := by
  obtain ⟨es, he, hes⟩ := hq.enviados
  refine ⟨hfresca, hlisto, ?_⟩
  intro p hp a' ha'
  obtain ⟨q, hmem, hsock, hpunto⟩ := hq.puntos p hp
  change a' ∈ ((s.entregar partida).jugador (partida.mapa.sock p)).asentada at ha'
  change (partida.mapa.pcb p).punto = _
  rw [correo_of_enviados he] at ha'
  have hcorreo : ∀ e ∈ correo (partida.mapa.sock p) es, e ≠ .ok := by
    intro e hmem
    obtain ⟨x, hx, rfl⟩ := List.mem_map.mp hmem
    exact hes x (List.mem_of_mem_filter hx)
  obtain ⟨a, ha, hpos⟩ := Jugador.posicion_recibir hcorreo ha'
  rw [hpunto, hpos]
  apply h.puntos q hmem
  rwa [← hsock]

theorem mueve {partida : Partida} {p q : ℕ} (h : Acorde s) (hp : p ∈ s.mapa.listaListos)
    (hq : s.mapa.getPcbBySockFdListos (s.mapa.sock p) = some q)
    (hsolo : ∀ q ∈ s.mapa.enListas, s.mapa.sock q = s.mapa.sock p → q = p)
    (hb : (s.jugador (s.mapa.sock p)).buzon = [])
    (hest : (s.jugador (s.mapa.sock p)).aventura.estado = .enCamino)
    (hm : SeMueve s.mapa q (s.mapa.sock p)
      (Entrenador.avanzar (s.jugador (s.mapa.sock p)).aventura.toViaje).ultimaDireccion.toInt
      partida.mapa)
    (hfresca : Fresca partida) (hlisto : partida.Listo) : Acorde (s.entregar partida) := by
  obtain rfl : q = p := hsolo q (List.mem_append_left _ (mem_of_getPcbBySockFdListos hq))
    (sock_of_getPcbBySockFdListos hp hq)
  refine ⟨hfresca, hlisto, ?_⟩
  intro x hx a' ha'
  change x ∈ partida.mapa.enListas at hx
  change a' ∈ ((s.entregar partida).jugador (partida.mapa.sock x)).asentada at ha'
  change (partida.mapa.pcb x).punto = _
  rw [hm.enListas] at hx
  rw [correo_of_enviados hm.enviados, hm.sock, Jugador.asentada_recibir] at ha'
  obtain ⟨a, ha, hfold⟩ := Option.bind_eq_some_iff.mp ha'
  rw [hm.punto]
  by_cases hxq : x = q
  · subst hxq
    rw [Jugador.asentada_nil hb] at ha
    obtain rfl := Option.some.inj ha
    have hok : a'.toViaje = Entrenador.avanzar (s.jugador (s.mapa.sock x)).aventura.toViaje := by
      have hcorreo : correo (s.mapa.sock x) [(s.mapa.sock x, .ok)] = [.ok] := by simp [correo]
      rw [hcorreo, List.foldlM_cons, ronda, respuesta, Option.bind_some, Entrenador.paso,
        if_pos hest] at hfold
      obtain rfl := Option.some.inj hfold
      rfl
    rw [if_pos rfl, Entrenador.moverPosicion_toInt, hok, Entrenador.avanzar_posicion]
    rw [h.puntos x hx _ (Jugador.asentada_nil hb)]
  · have hcorreo : correo (s.mapa.sock x) [(s.mapa.sock q, .ok)] = [] := by
      have hne : s.mapa.sock q ≠ s.mapa.sock x := fun he => hxq (hsolo x hx he.symm)
      simp [correo, hne]
    rw [hcorreo] at hfold
    obtain rfl := Option.some.inj hfold
    rw [if_neg hxq]
    exact h.puntos x hx a ha

theorem ajustar (h : Acorde s) (a : Ajustes) : Acorde (s.ajustar a) :=
  ⟨h.fresca.ajustar a, h.listo, h.puntos⟩

/-- The planner attends the message that the trainer in turn has sent. -/
theorem atiende {f : Fabrica} {algoritmo : Algoritmo} {partida : Partida} {p : ℕ} {r : Recibido}
    (h : Acorde s) (hsint : s.Sintoniza .atiende) (hp : s.turno.de = some p)
    (hr : s.pendiente p = some r) (havanza : s.partida.avanzar f algoritmo (.atiende r) = some partida)
    (hfresca : Fresca partida) (hlisto : partida.Listo) : Acorde (s.entregar partida) := by
  unfold Mundo.pendiente at hr
  split at hr
  · unfold Jugador.pedido at hr
    split at hr
    · next hb =>
      by_cases hmover : r.tipoMensaje = 2
      · obtain ⟨hest, hd⟩ := (pedido_mover hr).resolve_left (not_not.mpr hmover)
        obtain ⟨p', q, hp', hsale, hq, hm⟩ := Partida.seMueve hmover hd havanza
        obtain rfl : p = p' := Option.some.inj (hp.symm.trans hp')
        exact h.mueve (h.listo hsale p hp) hq (hsint p hp hest) hb hest hm hfresca hlisto
      · have hno : (Evento.atiende r).SinMover := fun ht => absurd ht hmover
        exact h.queda (Partida.queda h.fresca h.listo hno havanza) hfresca hlisto
    · cases hr
  · cases hr

theorem paso {f : Fabrica} {s' : Mundo} {e : Ajustes × Accion} (h : Acorde s)
    (hpaso : PasoEnSintonia f s e s') : Acorde s' := by
  obtain ⟨⟨hstep, hadmite⟩, hsint⟩ := hpaso
  rcases Mundo.paso_cases hstep with ⟨k, j, _, hj, rfl⟩ | ⟨ev, partida, hev, havanza, rfl⟩
  · exact h.lee hj
  have h := h.ajustar e.1
  have hjugada := Partida.avanzar_jugada havanza
  have hfresca := h.fresca.jugada ((hadmite ev hev).ajustar e.1) hjugada
  have hlisto := h.listo.jugada h.fresca hjugada
  have hqueda : ev.SinMover → Acorde (s.entregar partida) := fun hno =>
    h.queda (Partida.queda h.fresca h.listo hno havanza) hfresca hlisto
  obtain ⟨a, accion⟩ := e
  cases accion with
  | conecta sockfd path objetivos globales =>
    obtain ⟨id, _, rfl⟩ := Option.map_eq_some_iff.mp hev
    cases hjugada with
    | conecta he => exact h.conecta hsint (conectado_nuevoEntrenadorConectado he) hfresca hlisto
  | lee => cases hev
  | atiende =>
    obtain ⟨r, hr, rfl⟩ := Option.map_eq_some_iff.mp hev
    obtain ⟨p, hp, hr⟩ := Option.bind_eq_some_iff.mp hr
    exact h.atiende hsint hp hr havanza hfresca hlisto
  | corta r =>
    dsimp only [Mundo.evento] at hev
    split at hev
    · next hva =>
      obtain rfl := Option.some.inj hev
      apply hqueda
      intro ht
      simpa [Recibido.seVa, ht] using hva
    · cases hev
  | empieza | termina | detecta | recarga =>
    obtain rfl := Option.some.inj hev
    exact hqueda trivial

end Acorde

/-- Every trip ends at its pokenest, and where nobody moves who has two `t_pcb` in the lists the map
and the trainers agree on where the trainers are. -/
theorem viajes_en_sintonia (f : Fabrica) :
    (∀ v : Viaje, v.estado = .enCamino → v.posicionDelEntrenador.EnRango →
      v.puntoProximaPokenest.EnRango → v.Cumplido) ∧
    ∀ (s₀ s : Mundo) (es : List (Ajustes × Accion)), s₀.partida.Comienza →
      Run (PasoEnSintonia f) s₀ es s → s.EnSintonia := by
  refine ⟨fun v => v.cumplido, fun s₀ s es h₀ hrun => ?_⟩
  have h : Acorde s := hrun.invariant (fun _ _ _ h hpaso => h.paso hpaso) (.comienza h₀)
  exact h.enSintonia

/-! ## Two copies -/

/-- The pokenests `W`, `X`, `Y` and `V`, of which the last one has no unit, and `Z` three steps
away. -/
def mapaDeCinco : Estado where
  listaPokenest := [⟨87, [87], ⟨0, 0⟩, 2⟩, ⟨88, [88], ⟨0, 0⟩, 1⟩, ⟨89, [89], ⟨0, 0⟩, 1⟩,
    ⟨86, [86], ⟨0, 0⟩, 0⟩, ⟨90, [90], ⟨3, 0⟩, 1⟩]
  directorios := []
  pokeNests _ := [[48]]
  dirDeBill _ := []
  pcb _ :=
    { sockfd := 0, pathEntrenador := [], punto := ⟨0, 0⟩,
      proximaPokenest := ⟨87, [87], ⟨0, 0⟩, 2⟩, listaRecursos := 0, direccionDesconocida := true }
  recursos _ := []
  libre := 0
  listaListos := []
  listaBloqueados := []
  enviados := []
  quantum := 2
  batalla := true

def mundoVacio : Mundo where
  partida := ⟨⟨mapaDeCinco, .libre⟩, []⟩
  jugador _ := ⟨[], Entrenador.recienLlegado, []⟩

theorem comienza_mundoVacio : mundoVacio.partida.Comienza := ⟨rfl, rfl, rfl, rfl⟩

def rrDeDos : Ajustes := ⟨.rr, 2, true⟩

def dosMensajes (sockfd : ℤ) : List Accion :=
  [.empieza, .atiende, .lee sockfd, .atiende, .lee sockfd, .termina]

/-- The trainer goes after its next goal, which is where it is. -/
def alObjetivo (sockfd : ℤ) : List Accion :=
  [.empieza, .atiende, .lee sockfd, .termina] ++ dosMensajes sockfd

def llegan : List Accion :=
  [.conecta 10 [97] [89, 86] Entrenador.recienLlegado,
    .conecta 11 [98] [87, 88, 90] Entrenador.recienLlegado,
    .conecta 12 [99] [88] Entrenador.recienLlegado]

/-- Nobody fights, and the memory that is not set holds `0`. -/
def sinPeleas : Peleas := ⟨fun _ => (⟨[80], 1⟩, ⟨[80], 1⟩), fun _ => 0, 0⟩

/-- The second trainer blocks for the unit that the third one has, and behind the first one, which
waits for what is not there. It is copied twice until the third one finishes. -/
def seBloquean : List Accion :=
  alObjetivo 10 ++ alObjetivo 11 ++ alObjetivo 12 ++ alObjetivo 10 ++ alObjetivo 11 ++
    [.detecta sinPeleas, .empieza, .atiende, .termina, .detecta sinPeleas, .lee 11]

/-- It captures through one of its copies, moves twice with it and once with the other one. -/
def sigueElSegundo : List Accion :=
  dosMensajes 11 ++ dosMensajes 11 ++ [.empieza, .atiende, .lee 11]

/-- Two trainers go to `Z`, and the second one is still on its way. -/
def vanDos : List Accion :=
  [.conecta 13 [97] [90] Entrenador.recienLlegado, .conecta 14 [98] [90] Entrenador.recienLlegado] ++
    alObjetivo 13 ++ alObjetivo 14 ++ dosMensajes 13

theorem viajes_en_sintonia_dos :
    Viaje.Cumplido ⟨⟨2, 1⟩, .sinDireccion, .enCamino, ⟨0, 0⟩⟩ ∧
    ∃ s : Mundo, s.EnSintonia ∧ s.mapa.enListas.map (fun p => (s.mapa.pcb p).punto) =
      [⟨2, 0⟩, ⟨3, 0⟩] := by
  have hrun : ((vanDos.map fun e => (rrDeDos, e)).foldlM (fun (s : Mundo) e =>
      if s.Admite e.2 ∧ s.Sintoniza e.2 then s.paso fabricaDeNiveles e else none) mundoVacio).map
        (fun s => s.mapa.enListas.map fun p => (s.mapa.pcb p).punto) =
      some [⟨2, 0⟩, ⟨3, 0⟩] := by decide +kernel
  obtain ⟨s, hs, he⟩ := Option.map_eq_some_iff.mp hrun
  have hes : Run (PasoEnSintonia fabricaDeNiveles) mundoVacio _ s :=
    (Run.of_foldlM hs).mono fun _ _ _ h => ⟨⟨h.1, h.2.1⟩, h.2.2⟩
  have hrango : (⟨0, 0⟩ : Entrenador.Punto).EnRango ∧ (⟨2, 1⟩ : Entrenador.Punto).EnRango := by
    simp [Entrenador.Punto.EnRango]
  refine ⟨(viajes_en_sintonia fabricaDeNiveles).1 _ rfl hrango.1 hrango.2, s, ?_, he⟩
  exact (viajes_en_sintonia fabricaDeNiveles).2 _ _ _ comienza_mundoVacio hes

/-- The `t_pcb` that `getPcbBySockFdListos` finds for a trainer that is at the map does not have to
be where the trainer is. -/
theorem no_siempre_en_sintonia : ¬ ∀ (f : Fabrica) (s₀ s : Mundo) (es : List (Ajustes × Accion)),
    s₀.partida.Comienza → Run (PasoJuego f) s₀ es s → ∀ k ∈ s.partida.presentes,
      (s.jugador k).buzon = [] → ∀ p, s.mapa.getPcbBySockFdListos k = some p → s.mapa.sock p = k →
        (s.mapa.pcb p).punto = (s.jugador k).aventura.posicionDelEntrenador := by
  intro h
  have hrun : (((llegan ++ seBloquean ++ sigueElSegundo).map fun e => (rrDeDos, e)).foldlM
      (fun (s : Mundo) e => if s.Admite e.2 then s.paso fabricaDeNiveles e else none)
        mundoVacio).map (fun s => (s.partida.presentes, (s.jugador 11).buzon.length,
          s.mapa.getPcbBySockFdListos 11, s.mapa.sock 6, (s.mapa.pcb 6).punto,
          (s.jugador 11).aventura.posicionDelEntrenador)) =
      some ([11, 10], 0, some 6, 11, ⟨1, 0⟩, ⟨3, 0⟩) := by decide +kernel
  obtain ⟨s, hs, he⟩ := Option.map_eq_some_iff.mp hrun
  simp only [Prod.mk.injEq] at he
  obtain ⟨hpres, hb, hq, hsock, hpunto, hpos⟩ := he
  have hsin := h fabricaDeNiveles _ s _ comienza_mundoVacio (Run.of_foldlM hs) 11
    (by rw [hpres]; decide) (List.length_eq_zero_iff.mp hb) 6 hq hsock
  rw [hpunto, hpos] at hsin
  revert hsin
  decide

end TpSo.Juego
