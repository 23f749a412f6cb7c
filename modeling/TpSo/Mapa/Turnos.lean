import TpSo.Mapa.Conserva
import TpSo.Mapa.Planificador

/-!
# What each step does to the ready trainers

Only the planner takes trainers out of `listaListos`; the others add them at its end. `Efecto` says
what a message does, by its result, and `Suma` what the other threads do.
-/

namespace TpSo.Mapa

open Function (update)

/-! ## What the handlers do to the list -/

/-- The ready trainers, the sockets and the quantum are as they were. -/
structure Quieto (m m' : Estado) : Prop where
  listaListos : m'.listaListos = m.listaListos
  sock : m'.sock = m.sock
  libre : m'.libre = m.libre
  quantum : m'.quantum = m.quantum

namespace Quieto

theorem refl (m : Estado) : Quieto m m := ⟨rfl, rfl, rfl, rfl⟩

theorem trans {m m' m'' : Estado} (h : Quieto m m') (h' : Quieto m' m'') : Quieto m m'' :=
  ⟨h'.listaListos.trans h.listaListos, h'.sock.trans h.sock, h'.libre.trans h.libre,
    h'.quantum.trans h.quantum⟩

theorem modificarPcb {m m' : Estado} (h : Quieto m m') (p : ℕ) {f : Pcb → Pcb}
    (hf : ∀ e, (f e).sockfd = e.sockfd) : Quieto m (modificarPcb p f m') := by
  refine ⟨h.1, ?_, h.3, h.4⟩
  rw [← h.2]
  funext q
  unfold Mapa.modificarPcb Estado.sock
  dsimp only
  by_cases hq : q = p
  · subst hq
    rw [Function.update_self, hf]
  · rw [Function.update_of_ne hq]

theorem enviar {m m' : Estado} {s : ℤ} {e : Envio} (h : Quieto m m') :
    Quieto m (m'.enviar s e) := ⟨h.1, h.2, h.3, h.4⟩

end Quieto

theorem quieto_liberarRecursosBloqueados (p : ℕ) :
    Op.Keeps Quieto (liberarRecursosBloqueados p) := by
  intro m
  rw [liberarRecursosBloqueados, Op.get_bind]
  exact ⟨rfl, rfl, rfl, rfl⟩

theorem quieto_conserva : Conserva Quieto where
  refl := Quieto.refl
  trans _ _ _ h h' := h.trans h'
  enviar m _ _ _ := (Quieto.refl m).enviar
  bloqueados _ _ := ⟨rfl, rfl, rfl, rfl⟩
  liberar := quieto_liberarRecursosBloqueados

def desconocido (m : Estado) (id : UInt8) : Bool :=
  (m.getPokenestById id).any fun p => p.identificador ≠ id

/-- What a message does to the list, by its result. -/
inductive Efecto (m : Estado) (sockfd : ℤ) (r : Recibido) : ℤ → Estado → Prop where
  | atendido {m' : Estado} : Quieto m m' → r.tipoMensaje = 2 ∨ r.tipoMensaje = 3 →
      Efecto m sockfd r 0 m'
  | bloqueado {m' : Estado} : Quieto m m' → Efecto m sockfd r 1 m'
  | conocio {m' : Estado} : Quieto m m' → r.tipoMensaje = 1 → r.pokemon ≠ none →
      Efecto m sockfd r 2 m'
  | desconocida {m' : Estado} {id : UInt8} : Quieto m m' → r.tipoMensaje = 3 →
      r.pokemon = some id → desconocido m id = true → Efecto m sockfd r 3 m'
  | despedido {m' : Estado} : Quieto m m' → ¬ (r.tipoMensaje = 2 ∨ r.tipoMensaje = 3) →
      Efecto m sockfd r 1 (eliminarSocketListaListos sockfd m')

section Efecto
variable {m m' : Estado} {sockfd k : ℤ} {r : Recibido}

theorem efecto_obtenerPokenest (ht : r.tipoMensaje = 1)
    (h : obtenerPokenest sockfd r m = (some k, m')) : Efecto m sockfd r k m' := by
  unfold obtenerPokenest at h
  split at h
  · obtain ⟨rfl, rfl⟩ := Op.some_inj h
    exact .bloqueado (.refl m)
  · next pokemon hpok =>
    split at h
    · obtain ⟨rfl, rfl⟩ := Op.some_inj h
      apply Efecto.conocio _ ht (by simp [hpok])
      apply Quieto.enviar
      exact (Quieto.refl m).modificarPcb _ fun _ => rfl
    · simp at h

theorem efecto_moverPosicion (ht : r.tipoMensaje = 2)
    (h : moverPosicion sockfd r m = (some k, m')) : Efecto m sockfd r k m' := by
  unfold moverPosicion at h
  split at h
  · obtain ⟨rfl, rfl⟩ := Op.some_inj h
    exact .bloqueado (.refl m)
  · split at h
    · obtain ⟨rfl, rfl⟩ := Op.some_inj h
      apply Efecto.atendido _ (.inl ht)
      apply Quieto.enviar
      exact (Quieto.refl m).modificarPcb _ fun _ => rfl
    · simp at h

theorem efecto_entregarPokemon {p : ℕ} {pokemon : UInt8} {pokenest : Pokenest}
    (ht : r.tipoMensaje = 3) (h : entregarPokemon sockfd p pokemon pokenest r m = (some k, m')) :
    Efecto m sockfd r k m' := by
  unfold entregarPokemon at h
  dsimp only at h
  split at h
  · obtain ⟨rfl, rfl⟩ := Op.some_inj h
    apply Efecto.atendido _ (.inr ht)
    apply Quieto.modificarPcb
    · exact ⟨rfl, rfl, rfl, rfl⟩
    · intro _
      rfl
  · obtain ⟨rfl, rfl⟩ := Op.some_inj h
    exact .bloqueado ⟨rfl, rfl, rfl, rfl⟩

theorem efecto_capturarPokemon (ht : r.tipoMensaje = 3)
    (h : capturarPokemon sockfd r m = (some k, m')) : Efecto m sockfd r k m' := by
  unfold capturarPokemon at h
  split at h
  · obtain ⟨rfl, rfl⟩ := Op.some_inj h
    exact .bloqueado (.refl m)
  · next pokemon hpok =>
    split at h
    · next p pokenest hp hnest =>
      split at h
      · next hid =>
        obtain ⟨rfl, rfl⟩ := Op.some_inj h
        refine .desconocida (.refl m) ht hpok ?_
        rw [desconocido, hnest]
        exact decide_eq_true hid
      · split at h
        · exact efecto_entregarPokemon ht h
        · obtain ⟨rfl, rfl⟩ := Op.some_inj h
          exact .bloqueado ⟨rfl, rfl, rfl, rfl⟩
    · simp at h

theorem efecto_despedir (ht : ¬ (r.tipoMensaje = 2 ∨ r.tipoMensaje = 3)) {m₀ : Estado}
    (hm : Quieto m₀ m) (h : despedir sockfd m = (some k, m')) : Efecto m₀ sockfd r k m' := by
  obtain ⟨_, m₁, hlib, _⟩ := Op.of_bind (congrArg Prod.fst h)
  have hq := quieto_conserva.liberarRecursosListos sockfd m
  rw [hlib] at hq
  rw [despedir, Op.bind_some hlib, Op.modify_bind] at h
  obtain ⟨rfl, rfl⟩ := Op.some_inj h
  exact .despedido (hm.trans hq) ht

theorem efecto_mensaje (h : mensajeDeEntrenadorRecibido sockfd r m = (some k, m')) :
    Efecto m sockfd r k m' := by
  unfold mensajeDeEntrenadorRecibido at h
  split at h
  · next ht => exact efecto_obtenerPokenest ht h
  split at h
  · next ht => exact efecto_moverPosicion ht h
  split at h
  · next ht => exact efecto_capturarPokemon ht h
  · next h1 h2 h3 =>
    have hno : ¬ (r.tipoMensaje = 2 ∨ r.tipoMensaje = 3) := fun he => he.elim h2 h3
    split at h
    · rw [Op.modify_bind] at h
      exact efecto_despedir hno (Quieto.refl m).enviar h
    · exact efecto_despedir hno (.refl m) h

end Efecto

/-! ## What the other threads do to it -/

/-- Trainers with an address of their own are added at the end. -/
structure Suma (m m' : Estado) : Prop where
  listaListos : ∃ nuevos, m'.listaListos = m.listaListos ++ nuevos ∧ ∀ p ∈ nuevos, p < m'.libre
  libre : m.libre ≤ m'.libre
  sock : ∀ p < m.libre, m'.sock p = m.sock p
  quantum : m'.quantum = m.quantum

theorem Quieto.suma {m m' : Estado} (h : Quieto m m') : Suma m m' :=
  ⟨⟨[], by simp [h.listaListos]⟩, h.libre.ge, fun _ _ => by rw [h.sock], h.quantum⟩

theorem Suma.trans {m m' m'' : Estado} (h : Suma m m') (h' : Suma m' m'') : Suma m m'' := by
  obtain ⟨nuevos, hl, hn⟩ := h.listaListos
  obtain ⟨nuevos', hl', hn'⟩ := h'.listaListos
  constructor
  · refine ⟨nuevos ++ nuevos', by rw [hl', hl, List.append_assoc], ?_⟩
    intro p hp
    cases List.mem_append.mp hp with
    | inl hp => exact (hn p hp).trans_le h'.libre
    | inr hp => exact hn' p hp
  · exact h.libre.trans h'.libre
  · intro p hp
    exact (h'.sock p (hp.trans_le h.libre)).trans (h.sock p hp)
  · exact h'.quantum.trans h.quantum

theorem suma_nuevoEntrenadorConectado (sockfd : ℤ) (pathEntrenador : Nombre)
    (primerObjetivo : UInt8) :
    Op.Keeps Suma (nuevoEntrenadorConectado sockfd pathEntrenador primerObjetivo) := by
  intro m
  unfold nuevoEntrenadorConectado
  split
  · constructor
    · exact ⟨[m.libre], rfl, by simp⟩
    · exact Nat.le_succ _
    · intro p hp
      change (update m.pcb m.libre _ p).sockfd = (m.pcb p).sockfd
      rw [Function.update_of_ne hp.ne]
    · rfl
  · exact (Quieto.refl m).suma

theorem suma_copiarEntrenadores {m m' : Estado} {entrenadores : List ℕ}
    (h : copiarEntrenadores m = (some entrenadores, m')) :
    Suma m m' ∧ ∀ p ∈ entrenadores, p < m'.libre := by
  unfold copiarEntrenadores at h
  split at h
  · obtain ⟨rfl, rfl⟩ := Op.some_inj h
    constructor
    · refine ⟨⟨[], by simp⟩, Nat.le_add_right _ _, ?_, rfl⟩
      intro p hp
      change (if m.libre ≤ p then _ else m.pcb p).sockfd = (m.pcb p).sockfd
      rw [if_neg (Nat.not_le.mpr hp)]
    · intro p hp
      exact (List.mem_range'_1.mp hp).2
  · obtain ⟨rfl, rfl⟩ := Op.some_inj h
    exact ⟨(Quieto.refl m).suma, by simp⟩

theorem suma_pelear (f : Fabrica) (peleas : Peleas) : Op.Keeps Suma (pelear f peleas) := by
  intro m
  rcases hc : copiarEntrenadores m with ⟨_ | entrenadores, m₁⟩
  · unfold copiarEntrenadores at hc
    split at hc <;> cases hc
  obtain ⟨hs, hlt⟩ := suma_copiarEntrenadores hc
  rw [pelear, Op.bind_some hc, Op.get_bind]
  dsimp only [id_eq]
  rw [Op.modify_bind]
  have hlibres : Suma m₁ (liberarNoMarcados
      (entrenadores.filter fun p => !marcado m₁ peleas.basura p) m₁) := by
    refine ⟨⟨_, rfl, ?_⟩, le_rfl, fun _ _ => rfl, rfl⟩
    exact fun p hp => hlt p (List.mem_filter.mp hp).1
  apply (hs.trans hlibres).trans
  apply Quieto.suma
  apply Op.Keeps.bind quieto_conserva.trans (quieto_conserva.batallas f _ _ _)
  exact fun _ => Op.Keeps.pure Quieto.refl _

theorem suma_detectarDeadLock (f : Fabrica) (peleas : Peleas) :
    Op.Keeps Suma (detectarDeadLock f peleas) := by
  intro m
  rw [detectarDeadLock, Op.get_bind]
  dsimp only [id_eq]
  split
  · apply Op.Keeps.bind (R := Suma) (fun _ _ _ h h' => h.trans h') (suma_pelear f peleas)
    exact fun _ m => (quieto_conserva.liberarBloqueados m).suma
  · exact (quieto_conserva.liberarBloqueados m).suma

end TpSo.Mapa
