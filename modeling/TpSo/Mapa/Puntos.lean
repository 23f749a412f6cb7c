import TpSo.Mapa.Conserva
import TpSo.Mapa.Listas

/-!
# The positions of the trainers

Only `moverPosicion` changes the position in a `t_pcb`, and nobody else sends `OK`. It looks for the
trainer by its socket, and the copies of a detection have the socket of the original.
-/

namespace TpSo.Mapa

open Function (update)
open Entrenador (Punto)

def Estado.enListas (m : Estado) : List ℕ := m.listaListos ++ m.listaBloqueados

theorem enListas_subset {m m' : Estado} (hl : m'.listaListos ⊆ m.listaListos)
    (hb : m'.listaBloqueados ⊆ m.listaBloqueados) : m'.enListas ⊆ m.enListas :=
  List.append_subset.mpr
    ⟨List.subset_append_of_subset_left _ hl, List.subset_append_of_subset_right _ hb⟩

theorem Fresca.enListas {s : Partida} (h : Fresca s) : ∀ p ∈ s.mapa.enListas, p < s.mapa.libre := by
  intro p hp
  cases List.mem_append.mp hp with
  | inl hp => exact h.listos p hp
  | inr hp => exact h.bloqueados p hp

theorem sock_modificarPcb {m : Estado} {p : ℕ} {g : Pcb → Pcb}
    (hg : ∀ e, (g e).sockfd = e.sockfd) : (modificarPcb p g m).sock = m.sock :=
  ((Quieto.refl m).modificarPcb p hg).sock

/-! ## Without moves -/

/-- No position changes and nobody is sent `OK`. -/
structure SinMover (m m' : Estado) : Prop where
  libre : m.libre ≤ m'.libre
  sock : ∀ p < m.libre, m'.sock p = m.sock p
  punto : ∀ p < m.libre, (m'.pcb p).punto = (m.pcb p).punto
  enviados : ∃ es, m'.enviados = m.enviados ++ es ∧ ∀ e ∈ es, e.2 ≠ Envio.ok

namespace SinMover

variable {m m' m'' : Estado}

theorem of_pcb (hlibre : m'.libre = m.libre) (hpcb : m'.pcb = m.pcb)
    (henv : m'.enviados = m.enviados) : SinMover m m' := by
  refine ⟨hlibre.ge, fun p _ => ?_, fun p _ => ?_, [], by rw [henv, List.append_nil], by simp⟩
  · rw [Estado.sock, hpcb, Estado.sock]
  · rw [hpcb]

theorem refl (m : Estado) : SinMover m m := .of_pcb rfl rfl rfl

theorem trans (h : SinMover m m') (h' : SinMover m' m'') : SinMover m m'' := by
  obtain ⟨es, he, hes⟩ := h.enviados
  obtain ⟨es', he', hes'⟩ := h'.enviados
  refine ⟨h.libre.trans h'.libre, fun p hp => ?_, fun p hp => ?_, es ++ es', ?_, ?_⟩
  · exact (h'.sock p (hp.trans_le h.libre)).trans (h.sock p hp)
  · exact (h'.punto p (hp.trans_le h.libre)).trans (h.punto p hp)
  · rw [he', he, List.append_assoc]
  · exact List.forall_mem_append.mpr ⟨hes, hes'⟩

theorem enviar (m : Estado) (k : ℤ) {e : Envio} (he : e ≠ .ok) : SinMover m (m.enviar k e) :=
  ⟨le_rfl, fun _ _ => rfl, fun _ _ => rfl, [(k, e)], rfl, by simpa using he⟩

theorem modificarPcb (m : Estado) (p : ℕ) {f : Pcb → Pcb} (hsock : ∀ e, (f e).sockfd = e.sockfd)
    (hpunto : ∀ e, (f e).punto = e.punto) : SinMover m (modificarPcb p f m) := by
  refine ⟨le_rfl, fun q _ => congrFun (sock_modificarPcb hsock) q, fun q _ => ?_, [],
    (List.append_nil _).symm, by simp⟩
  by_cases hq : q = p
  · subst hq
    simp [Mapa.modificarPcb, hpunto]
  · simp [Mapa.modificarPcb, hq]

end SinMover

theorem sinMover_conserva : Conserva SinMover where
  refl := .refl
  trans _ _ _ h h' := h.trans h'
  enviar m k _ he := .enviar m k he
  bloqueados _ _ := .of_pcb rfl rfl rfl
  liberar p := by
    intro m
    rw [liberarRecursosBloqueados, Op.get_bind]
    exact .of_pcb rfl rfl rfl

theorem sinMover_detectarDeadLock (f : Fabrica) (peleas : Peleas) :
    Op.Keeps SinMover (detectarDeadLock f peleas) := by
  refine sinMover_conserva.detectarDeadLock ?_ (fun _ _ => .of_pcb rfl rfl rfl) f peleas
  intro m
  unfold copiarEntrenadores
  split
  · refine ⟨Nat.le_add_right _ _, fun p hp => ?_, fun p hp => ?_, [], (List.append_nil _).symm, by simp⟩
    · simp [Estado.sock, Nat.not_le.mpr hp]
    · simp [Nat.not_le.mpr hp]
  · exact .refl m

theorem sinMover_obtenerPokenest (sockfd : ℤ) (r : Recibido) :
    Op.Keeps SinMover (obtenerPokenest sockfd r) := by
  intro m
  unfold obtenerPokenest
  split
  · exact .refl m
  split
  · dsimp only
    refine (SinMover.modificarPcb m _ ?_ ?_).trans (.enviar _ _ ?_)
    · exact fun _ => rfl
    · exact fun _ => rfl
    · simp
  · exact .refl m

theorem sinMover_entregarPokemon (sockfd : ℤ) (p : ℕ) (id : UInt8) (pokenest : Pokenest)
    (r : Recibido) : Op.Keeps SinMover (entregarPokemon sockfd p id pokenest r) := by
  intro m
  have hda : SinMover m (m.enviar sockfd (.teDoyElPokemon pokenest.species
      (m.adquirirPathPokemonEnEspecifico pokenest.species))) := .enviar m sockfd (by simp)
  unfold entregarPokemon
  dsimp only
  split
  · dsimp only
    refine hda.trans (.trans ?_ (.modificarPcb _ p ?_ ?_))
    · exact .of_pcb rfl rfl rfl
    · exact fun _ => rfl
    · exact fun _ => rfl
  · exact hda.trans (.of_pcb rfl rfl rfl)

theorem sinMover_capturarPokemon (sockfd : ℤ) (r : Recibido) :
    Op.Keeps SinMover (capturarPokemon sockfd r) := by
  intro m
  unfold capturarPokemon
  split
  · exact .refl m
  split
  · split
    · exact .refl m
    split
    · exact sinMover_entregarPokemon _ _ _ _ _ m
    · exact (SinMover.enviar m sockfd (by simp)).trans (.of_pcb rfl rfl rfl)
  · exact .refl m

theorem sinMover_despedir (sockfd : ℤ) : Op.Keeps SinMover (despedir sockfd) := by
  apply Op.Keeps.bind (fun _ _ _ h h' => h.trans h')
    (sinMover_conserva.liberarRecursosListos sockfd)
  intro _ m
  rw [Op.modify_bind]
  exact .of_pcb rfl rfl rfl

theorem sinMover_mensaje {sockfd : ℤ} {r : Recibido} (h : r.tipoMensaje = 2 → r.direccion = none) :
    Op.Keeps SinMover (mensajeDeEntrenadorRecibido sockfd r) := by
  intro m
  unfold mensajeDeEntrenadorRecibido
  split
  · exact sinMover_obtenerPokenest sockfd r m
  split
  · next ht =>
    rw [moverPosicion, h ht]
    exact .refl m
  split
  · exact sinMover_capturarPokemon sockfd r m
  split
  · rw [Op.modify_bind]
    exact (SinMover.enviar m sockfd (by simp)).trans (sinMover_despedir sockfd _)
  · exact sinMover_despedir sockfd m

/-! ## Moves -/

/-- The trainer at `q` moves, and the one with the socket is told so. -/
structure SeMueve (m : Estado) (q : ℕ) (sockfd d : ℤ) (m' : Estado) : Prop where
  enListas : m'.enListas = m.enListas
  sock : m'.sock = m.sock
  punto : ∀ p, (m'.pcb p).punto =
    if p = q then Entrenador.moverPosicion d (m.pcb q).punto else (m.pcb p).punto
  enviados : m'.enviados = m.enviados ++ [(sockfd, .ok)]

theorem seMueve_mensaje {m m' : Estado} {sockfd k d : ℤ} {r : Recibido} (ht : r.tipoMensaje = 2)
    (hd : r.direccion = some d) (h : mensajeDeEntrenadorRecibido sockfd r m = (some k, m')) :
    ∃ q, m.getPcbBySockFdListos sockfd = some q ∧ SeMueve m q sockfd d m' := by
  rw [mensajeDeEntrenadorRecibido, if_neg (by rw [ht]; decide), if_pos ht, moverPosicion, hd] at h
  cases hq : m.getPcbBySockFdListos sockfd with
  | none =>
    rw [hq] at h
    cases h
  | some q =>
    rw [hq] at h
    obtain ⟨_, rfl⟩ := Op.some_inj h
    refine ⟨q, rfl, rfl, ?_, ?_, rfl⟩
    · apply Quieto.sock
      apply Quieto.enviar
      exact (Quieto.refl m).modificarPcb q fun _ => rfl
    · intro p
      by_cases hp : p = q
      · subst hp
        simp [Estado.enviar, modificarPcb]
      · simp [Estado.enviar, modificarPcb, hp]

theorem Partida.avanzar_atiende {f : Fabrica} {algoritmo : Algoritmo} {s s' : Partida}
    {r : Recibido} (h : s.avanzar f algoritmo (.atiende r) = some s') :
    ∃ p k m₁, s.turno.de = some p ∧ s.turno.saliente = none ∧
      mensajeDeEntrenadorRecibido (s.mapa.sock p) r s.mapa = (some k, m₁) ∧
      (s'.mapa = m₁ ∨
        s'.mapa = modificarPcb p (fun e => { e with direccionDesconocida := false }) m₁) := by
  obtain ⟨proceso, hpaso, rfl⟩ := Option.map_eq_some_iff.mp h
  change atender s.proceso r = some proceso at hpaso
  unfold atender at hpaso
  split at hpaso
  · next p n ht =>
    obtain ⟨⟨k, m⟩, ho, rfl⟩ := Option.map_eq_some_iff.mp hpaso
    refine ⟨p, k, m, ?_, ?_, Op.outcome_eq_some.mp ho, .inl rfl⟩ <;> rw [Partida.turno, ht] <;> rfl
  · next p ht =>
    obtain ⟨⟨k, m⟩, ho, rfl⟩ := Option.map_eq_some_iff.mp hpaso
    refine ⟨p, k, m, ?_, ?_, Op.outcome_eq_some.mp ho, .inl rfl⟩ <;> rw [Partida.turno, ht] <;> rfl
  · next p ht =>
    obtain ⟨⟨k, m⟩, ho, rfl⟩ := Option.map_eq_some_iff.mp hpaso
    refine ⟨p, k, m, ?_, ?_, Op.outcome_eq_some.mp ho, .inr rfl⟩ <;> rw [Partida.turno, ht] <;> rfl
  · cases hpaso

theorem Partida.seMueve {f : Fabrica} {algoritmo : Algoritmo} {s s' : Partida} {r : Recibido}
    {d : ℤ} (ht : r.tipoMensaje = 2) (hd : r.direccion = some d)
    (h : s.avanzar f algoritmo (.atiende r) = some s') :
    ∃ p q, s.turno.de = some p ∧ s.turno.saliente = none ∧
      s.mapa.getPcbBySockFdListos (s.mapa.sock p) = some q ∧
      SeMueve s.mapa q (s.mapa.sock p) d s'.mapa := by
  obtain ⟨p, k, m₁, hp, hsale, hm, hs'⟩ := Partida.avanzar_atiende h
  obtain ⟨q, hq, hmueve⟩ := seMueve_mensaje ht hd hm
  refine ⟨p, q, hp, hsale, hq, ?_⟩
  rcases hs' with hs' | hs'
  · rwa [hs']
  · rw [hs']
    refine ⟨hmueve.enListas, ?_, ?_, hmueve.enviados⟩
    · refine Eq.trans ?_ hmueve.sock
      exact sock_modificarPcb fun _ => rfl
    · intro x
      rw [← hmueve.punto x]
      by_cases hx : x = p
      · subst hx
        simp [modificarPcb]
      · simp [modificarPcb, hx]

/-! ## The turn -/

/-- The trainer of the turn is ready until a message takes it out. -/
def Partida.Listo (s : Partida) : Prop :=
  s.turno.saliente = none → ∀ p ∈ s.turno.de, p ∈ s.mapa.listaListos

theorem Partida.Listo.jugada {f : Fabrica} {s s' : Partida} {e : Evento} (h : s.Listo)
    (hfresca : Fresca s) (hj : Jugada f s e s') : s'.Listo := by
  intro hsale q hq
  cases hj with
  | @conecta _ _ _ m' he =>
    change q ∈ m'.listaListos
    rw [(conectado_nuevoEntrenadorConectado he).listaListos]
    exact List.mem_append_left _ (h hsale q hq)
  | empieza _ hp =>
    rw [← Option.some.inj hq]
    exact List.mem_of_head? hp
  | elige _ hp => rwa [← Option.some.inj hq]
  | @atiende r p n k m' ht hm =>
    have hp : p ∈ s.mapa.listaListos := h (by rw [ht]; rfl) p (by rw [ht]; rfl)
    obtain ⟨hk, rfl⟩ : k ≠ 1 ∧ q = p := by
      change Turno.saliente (trasMensaje p n k) = none at hsale
      change Turno.de (trasMensaje p n k) = some q at hq
      unfold trasMensaje at hsale hq
      split at hq
      · rw [if_pos ‹_›] at hsale
        refine ⟨fun hk => ?_, (Option.some.inj hq).symm⟩
        rw [Turno.saliente, if_pos hk] at hsale
        cases hsale
      · next hno => exact ⟨fun hk => hno (.inl hk), (Option.some.inj hq).symm⟩
    cases hm.cambio with
    | queda _ _ hi =>
      change q ∈ m'.listaListos
      rwa [hi.listaListos]
    | bloqueado => exact absurd rfl hk
    | cortado => exact absurd rfl hk
    | despedido => exact absurd rfl hk
  | @atiendeElegido r p segundo k m₁ m' t ht hm hi _ _ hturno =>
    have hp : p ∈ s.mapa.listaListos := h (by rw [ht]; rfl) p (by rw [ht]; rfl)
    rcases hturno with rfl | ⟨hk, rfl⟩
    · cases hq
    · rw [← Option.some.inj hq]
      cases (hm.cambio.inmovil hi) with
      | queda _ _ hi =>
        change p ∈ m'.listaListos
        rwa [hi.listaListos]
      | bloqueado => exact absurd rfl hk
      | cortado => exact absurd rfl hk
      | despedido => exact absurd rfl hk
  | termina => cases hq
  | @detecta _ m' he =>
    change q ∈ m'.listaListos
    rw [(deteccion_detectarDeadLock hfresca.bloqueados he).listaListos]
    exact List.mem_append_left _ (h hsale q hq)
  | recarga => exact h hsale q hq

/-! ## Every other event -/

/-- Everybody in the lists is where somebody with its socket was, and nobody is sent `OK`. -/
structure Queda (m m' : Estado) : Prop where
  puntos : ∀ p ∈ m'.enListas, ∃ q ∈ m.enListas,
    m'.sock p = m.sock q ∧ (m'.pcb p).punto = (m.pcb q).punto
  enviados : ∃ es, m'.enviados = m.enviados ++ es ∧ ∀ e ∈ es, e.2 ≠ Envio.ok

theorem SinMover.queda {m m' : Estado} (h : SinMover m m') (hl : m'.enListas ⊆ m.enListas)
    (hfrescos : ∀ p ∈ m.enListas, p < m.libre) : Queda m m' := by
  refine ⟨fun p hp => ?_, h.enviados⟩
  have hlibre := hfrescos p (hl hp)
  exact ⟨p, hl hp, h.sock p hlibre, h.punto p hlibre⟩

def Evento.SinMover : Evento → Prop
  | .conecta _ _ _ => False
  | .atiende r => r.tipoMensaje = 2 → r.direccion = none
  | _ => True

theorem Partida.sinMover_atiende {f : Fabrica} {algoritmo : Algoritmo} {s s' : Partida}
    {r : Recibido} (hno : r.tipoMensaje = 2 → r.direccion = none)
    (h : s.avanzar f algoritmo (.atiende r) = some s') : Mapa.SinMover s.mapa s'.mapa := by
  obtain ⟨p, k, m₁, _, _, hm, hs'⟩ := Partida.avanzar_atiende h
  have hsin := (sinMover_mensaje hno).outcome (Op.outcome_eq_some.mpr hm)
  rcases hs' with hs' | hs'
  · rwa [hs']
  · rw [hs']
    exact hsin.trans (.modificarPcb m₁ p (fun _ => rfl) fun _ => rfl)

theorem Jugada.enListas_atiende {f : Fabrica} {s s' : Partida} {r : Recibido}
    (hj : Jugada f s (.atiende r) s') : s'.mapa.enListas ⊆ s.mapa.enListas := by
  obtain ⟨p, k, hc⟩ : ∃ p k, Cambio s.mapa (s.mapa.sock p) r k s'.mapa := by
    cases hj with
    | atiende ht hm => exact ⟨_, _, hm.cambio⟩
    | atiendeElegido ht hm hi _ _ _ => exact ⟨_, _, hm.cambio.inmovil hi⟩
  obtain ⟨_, _, hlistos, hbloq⟩ := hc.listas
  intro q hq
  cases List.mem_append.mp hq with
  | inl hq => exact List.mem_append_left _ (hlistos q hq)
  | inr hq => exact List.mem_append.mpr (hbloq q hq)

theorem Partida.queda {f : Fabrica} {algoritmo : Algoritmo} {s s' : Partida} {e : Evento}
    (hfresca : Fresca s) (hlisto : s.Listo) (hno : e.SinMover)
    (h : s.avanzar f algoritmo e = some s') : Queda s.mapa s'.mapa := by
  have hj := Partida.avanzar_jugada h
  cases hj with
  | conecta => exact hno.elim
  | empieza => exact (SinMover.refl _).queda (List.Subset.refl _) hfresca.enListas
  | elige => exact (SinMover.refl _).queda (List.Subset.refl _) hfresca.enListas
  | atiende =>
    exact (Partida.sinMover_atiende hno h).queda (Partida.avanzar_jugada h).enListas_atiende
      hfresca.enListas
  | atiendeElegido =>
    exact (Partida.sinMover_atiende hno h).queda (Partida.avanzar_jugada h).enListas_atiende
      hfresca.enListas
  | @termina p k ht =>
    obtain ⟨l, hl⟩ := finDeTurno_lista p k s.mapa
    refine SinMover.queda ?_ ?_ hfresca.enListas
    · change SinMover s.mapa (finDeTurno p k s.mapa)
      rw [hl]
      exact .of_pcb rfl rfl rfl
    · have hlistos : (finDeTurno p k s.mapa).listaListos ⊆ s.mapa.listaListos := by
        unfold finDeTurno
        split
        · exact List.eraseP_subset
        split
        · next hk =>
          have hp : p ∈ s.mapa.listaListos := by
            refine hlisto ?_ p (by rw [ht]; rfl)
            rw [ht, Turno.saliente, if_neg ‹_›]
          exact List.append_subset.mpr ⟨List.eraseIdx_subset, by simpa using hp⟩
        · exact List.Subset.refl _
      apply enListas_subset hlistos
      rw [hl]
      exact List.Subset.refl _
  | @detecta peleas m' he =>
    have hd := deteccion_detectarDeadLock hfresca.bloqueados he
    have hsin := (sinMover_detectarDeadLock f peleas).outcome (Op.outcome_eq_some.mpr he)
    refine ⟨fun p hp => ?_, hsin.enviados⟩
    have hviejo : p ∈ s.mapa.enListas ∨ p ∈ sueltos peleas s.mapa := by
      cases List.mem_append.mp hp with
      | inl hp =>
        change p ∈ m'.listaListos at hp
        rw [hd.listaListos] at hp
        exact (List.mem_append.mp hp).imp_left (List.mem_append_left _)
      | inr hp => exact .inl (List.mem_append_right _ (hd.listaBloqueados hp))
    cases hviejo with
    | inl hp =>
      have hlibre := hfresca.enListas p hp
      exact ⟨p, hp, hsin.sock p hlibre, hsin.punto p hlibre⟩
    | inr hp =>
      obtain ⟨q, hq, hpcb⟩ := hd.copias p hp
      refine ⟨q, List.mem_append_right _ (List.mem_of_getElem? hq), ?_, ?_⟩
      · exact congrArg Pcb.sockfd hpcb
      · exact congrArg Pcb.punto hpcb
  | recarga =>
    exact SinMover.queda (.of_pcb rfl rfl rfl) (List.Subset.refl s.mapa.enListas) hfresca.enListas

end TpSo.Mapa
