import Mathlib.Data.List.Basic
import TpSo.Mapa.Batalla
import TpSo.Mapa.Turnos

/-!
# The quantum of round robin

Two potentials pay for the messages: what is left to the trainer in turn, and what the trainers in
front of another one have left. Both hold as long as no turn that has attended a movement or a
capture ends without taking its trainer to the end of the list.
-/

namespace TpSo.Mapa

/-! ## Steps under round robin -/

/-- What a step does under round robin. -/
inductive PasoRR (s : Proceso) : Evento → Proceso → Prop where
  | ajeno {e : Evento} {m : Estado} : Suma s.mapa m → (∀ r, e ≠ .atiende r) → e ≠ .termina →
      PasoRR s e ⟨m, s.turno⟩
  | empieza {p : ℕ} : s.turno = .libre → s.mapa.listaListos.head? = some p →
      PasoRR s .empieza ⟨s.mapa, .enCurso p s.mapa.quantum⟩
  | atiende {r : Recibido} {p k : ℕ} {result : ℤ} {m : Estado} : s.turno = .enCurso p (k + 1) →
      Efecto s.mapa (s.mapa.sock p) r result m → PasoRR s (.atiende r) ⟨m, trasMensaje p k result⟩
  | termina {p : ℕ} {result : ℤ} : s.turno = .agotado p result →
      PasoRR s .termina ⟨finDeTurno p result s.mapa, .libre⟩

theorem PasoMapa.cases_rr {f : Fabrica} {s s' : Proceso} {e : Evento}
    (h : PasoMapa .rr f s e s') (hturno : ∀ p segundo, s.turno ≠ .elegido p segundo) :
    PasoRR s e s' := by
  cases e with
  | conecta sockfd pathEntrenador primerObjetivo =>
    obtain ⟨⟨_, m⟩, ho, rfl⟩ := Option.map_eq_some_iff.mp h
    exact .ajeno ((suma_nuevoEntrenadorConectado _ _ _).outcome ho) (by simp) (by simp)
  | empieza =>
    unfold PasoMapa pasoMapa at h
    dsimp only at h
    split at h
    · next hlibre =>
      obtain ⟨turno, ht, rfl⟩ := Option.map_eq_some_iff.mp h
      unfold empezar at ht
      dsimp only at ht
      split at ht
      · cases ht
      · obtain ⟨p, hp, rfl⟩ := Option.map_eq_some_iff.mp ht
        exact .empieza hlibre hp
    · cases h
  | atiende r =>
    unfold PasoMapa pasoMapa at h
    dsimp only at h
    unfold atender at h
    split at h
    · next p k hk =>
      obtain ⟨⟨result, m⟩, ho, rfl⟩ := Option.map_eq_some_iff.mp h
      exact .atiende hk (efecto_mensaje (Op.outcome_eq_some.mp ho))
    · next p hk => exact absurd hk (hturno _ _)
    · next p hk => exact absurd hk (hturno _ _)
    · cases h
  | termina =>
    unfold PasoMapa pasoMapa at h
    dsimp only at h
    split at h
    · next p result hk =>
      obtain rfl := Option.some.inj h
      exact .termina hk
    · cases h
  | detecta peleas =>
    obtain ⟨⟨_, m⟩, ho, rfl⟩ := Option.map_eq_some_iff.mp h
    exact .ajeno ((suma_detectarDeadLock f peleas).outcome ho) (by simp) (by simp)
  | recarga =>
    obtain rfl := Option.some.inj h
    exact .ajeno (Quieto.suma ⟨rfl, rfl, rfl, rfl⟩) (by simp) (by simp)

/-! ## Regular steps -/

def Turno.de : Turno → Option ℕ
  | .libre => none
  | .enCurso p _ => some p
  | .agotado p _ => some p
  | .elegido p _ => some p

/-- `CONOCER_POKENEST` is the first message of its turn, and the last one is not the capture of an
unknown pokenest. -/
def Turno.Admite (m : Estado) (r : Recibido) : Turno → Prop
  | .enCurso _ remain =>
    (r.tipoMensaje = 1 → r.pokemon ≠ none → remain = m.quantum) ∧
      (remain = 1 → r.tipoMensaje = 3 → r.pokemon.any (desconocido m) = false)
  | _ => True

/-- Behind the trainer of a turn that ends there is another one. -/
def Turno.Deja (m : Estado) : Turno → Prop
  | .agotado p _ =>
    (eliminarSocketListaListos (m.sock p) m).listaListos.head?.map m.sock ≠ some (m.sock p)
  | _ => True

instance (m : Estado) (r : Recibido) : ∀ turno : Turno, Decidable (turno.Admite m r)
  | .enCurso _ _ => inferInstanceAs (Decidable (_ ∧ _))
  | .libre => .isTrue trivial
  | .agotado _ _ => .isTrue trivial
  | .elegido _ _ => .isTrue trivial

instance (m : Estado) : ∀ turno : Turno, Decidable (turno.Deja m)
  | .agotado _ _ => inferInstanceAs (Decidable (_ ≠ _))
  | .libre => .isTrue trivial
  | .enCurso _ _ => .isTrue trivial
  | .elegido _ _ => .isTrue trivial

def Regular (s : Proceso) : Evento → Prop
  | .atiende r => s.turno.Admite s.mapa r
  | .termina => s.turno.Deja s.mapa
  | _ => True

instance (s : Proceso) : ∀ e : Evento, Decidable (Regular s e)
  | .atiende r => inferInstanceAs (Decidable (s.turno.Admite s.mapa r))
  | .termina => inferInstanceAs (Decidable (s.turno.Deja s.mapa))
  | .conecta _ _ _ => .isTrue trivial
  | .empieza => .isTrue trivial
  | .detecta _ => .isTrue trivial
  | .recarga => .isTrue trivial

def PasoRegular (f : Fabrica) (s : Proceso) (e : Evento) (s' : Proceso) : Prop :=
  PasoMapa .rr f s e s' ∧ Regular s e

/-! ## The invariant -/

/-- Where the planner is, with the list. -/
def EnTurno (q : ℕ) (m : Estado) : Turno → Prop
  | .libre => True
  | .enCurso p remain => m.listaListos.head? = some p ∧ 1 ≤ remain ∧ remain ≤ q
  | .agotado p result =>
    p < m.libre ∧ (result = 0 ∧ m.listaListos.head? = some p ∨ result = 1 ∨ result = 2)
  | .elegido _ _ => False

structure EnRueda (q : ℕ) (s : Proceso) : Prop where
  quantum : s.mapa.quantum = q
  frescos : ∀ p ∈ s.mapa.listaListos, p < s.mapa.libre
  turno : EnTurno q s.mapa s.turno

theorem head_append {α : Type} {l nuevos : List α} {p : α} (h : l.head? = some p) :
    (l ++ nuevos).head? = some p := by
  rw [List.head?_append, h]
  rfl

theorem Suma.head {m m' : Estado} (h : Suma m m') {p : ℕ} (hp : m.listaListos.head? = some p) :
    m'.listaListos.head? = some p := by
  obtain ⟨nuevos, hl, _⟩ := h.listaListos
  rw [hl]
  exact head_append hp

theorem Suma.enTurno {q : ℕ} {m m' : Estado} (h : Suma m m') {t : Turno} (ht : EnTurno q m t) :
    EnTurno q m' t := by
  cases t with
  | libre => trivial
  | enCurso p remain => exact ⟨h.head ht.1, ht.2⟩
  | agotado p result =>
    refine ⟨ht.1.trans_le h.libre, ht.2.imp_left ?_⟩
    exact fun hres => ⟨hres.1, h.head hres.2⟩
  | elegido p segundo => exact ht

theorem EnRueda.no_elegido {q : ℕ} {s : Proceso} (h : EnRueda q s) (p : ℕ) (segundo : Bool) :
    s.turno ≠ .elegido p segundo := by
  intro he
  have ht := h.turno
  rw [he] at ht
  exact ht

theorem trasMensaje_sigue {p k : ℕ} {result : ℤ} (h1 : result ≠ 1) (h2 : result ≠ 2)
    (hk : k ≠ 0) : trasMensaje p k result = .enCurso p k := by
  simp [trasMensaje, h1, h2, hk]

theorem trasMensaje_corta {p k : ℕ} {result : ℤ} (h : result = 1 ∨ result = 2 ∨ k = 0) :
    trasMensaje p k result = .agotado p result := if_pos h

theorem Quieto.frescos {m m' : Estado} (h : Quieto m m') (hm : ∀ p ∈ m.listaListos, p < m.libre) :
    ∀ p ∈ m'.listaListos, p < m'.libre := by
  rw [h.listaListos, h.libre]
  exact hm

section Rueda
variable {q p k : ℕ} {m m' : Estado} {r : Recibido} {result : ℤ}

/-- After a message of its trainer the turn goes on, or it has ended. -/
theorem enTurno_trasMensaje (hp : m.listaListos.head? = some p) (hlt : p < m.libre) (hk : k < q)
    (hr : k = 0 → r.tipoMensaje = 3 → r.pokemon.any (desconocido m) = false)
    (he : Efecto m (m.sock p) r result m') : EnTurno q m' (trasMensaje p k result) := by
  cases he with
  | atendido hq =>
    have hp' : m'.listaListos.head? = some p := by rw [hq.listaListos, hp]
    by_cases h0 : k = 0
    · rw [trasMensaje_corta (.inr (.inr h0))]
      exact ⟨by rwa [hq.libre], .inl ⟨rfl, hp'⟩⟩
    · rw [trasMensaje_sigue (by decide) (by decide) h0]
      exact ⟨hp', by omega, by omega⟩
  | bloqueado hq =>
    rw [trasMensaje_corta (.inl rfl)]
    exact ⟨by rwa [hq.libre], .inr (.inl rfl)⟩
  | conocio hq =>
    rw [trasMensaje_corta (.inr (.inl rfl))]
    exact ⟨by rwa [hq.libre], .inr (.inr rfl)⟩
  | desconocida hq ht hid hdes =>
    have h0 : k ≠ 0 := by
      intro h0
      have hno := hr h0 ht
      rw [hid, Option.any_some, hdes] at hno
      cases hno
    rw [trasMensaje_sigue (by decide) (by decide) h0]
    exact ⟨by rw [hq.listaListos, hp], by omega, by omega⟩
  | despedido hq =>
    rw [trasMensaje_corta (.inl rfl)]
    exact ⟨hlt.trans_eq hq.libre.symm, .inr (.inl rfl)⟩

theorem Efecto.quantum {sockfd : ℤ} (he : Efecto m sockfd r result m') :
    m'.quantum = m.quantum := by
  cases he with
  | despedido hq => exact hq.quantum
  | _ hq => exact hq.quantum

theorem Efecto.sock {sockfd : ℤ} (he : Efecto m sockfd r result m') : m'.sock = m.sock := by
  cases he with
  | despedido hq => exact hq.sock
  | _ hq => exact hq.sock

theorem Efecto.frescos {sockfd : ℤ} (he : Efecto m sockfd r result m')
    (hm : ∀ p ∈ m.listaListos, p < m.libre) : ∀ p ∈ m'.listaListos, p < m'.libre := by
  cases he with
  | despedido hq => exact fun p hp => hq.frescos hm p (List.mem_of_mem_eraseP hp)
  | _ hq => exact hq.frescos hm

theorem frescos_finDeTurno (hm : ∀ p ∈ m.listaListos, p < m.libre) (hlt : p < m.libre) :
    ∀ u ∈ (finDeTurno p result m).listaListos, u < (finDeTurno p result m).libre := by
  unfold finDeTurno
  split
  · exact fun u hu => hm u (List.mem_of_mem_eraseP hu)
  split
  · intro u hu
    cases List.mem_append.mp hu with
    | inl hu => exact hm u (List.mem_of_mem_eraseIdx hu)
    | inr hu =>
      rw [List.mem_singleton.mp hu]
      exact hlt
  · exact hm

theorem quantum_finDeTurno : (finDeTurno p result m).quantum = m.quantum := by
  unfold finDeTurno
  split
  · rfl
  split <;> rfl

end Rueda

/-- A regular step keeps the planner at the head of the list. -/
theorem EnRueda.paso {f : Fabrica} {q : ℕ} (hq : 1 ≤ q) {s s' : Proceso} {e : Evento}
    (h : EnRueda q s) (hstep : PasoRegular f s e s') : EnRueda q s' := by
  obtain ⟨hpaso, hreg⟩ := hstep
  cases hpaso.cases_rr h.no_elegido with
  | ajeno hs _ _ =>
    obtain ⟨nuevos, hl, hn⟩ := hs.listaListos
    refine ⟨hs.quantum.trans h.quantum, ?_, hs.enTurno h.turno⟩
    intro p hp
    rw [hl] at hp
    cases List.mem_append.mp hp with
    | inl hp => exact (h.frescos p hp).trans_le hs.libre
    | inr hp => exact hn p hp
  | empieza _ hp => exact ⟨h.quantum, h.frescos, hp, by rw [h.quantum]; exact hq, h.quantum.le⟩
  | @atiende r p k result m ht he =>
    have hturno := h.turno
    rw [ht] at hturno
    have hlt := h.frescos p (List.mem_of_head? hturno.1)
    refine ⟨he.quantum.trans h.quantum, he.frescos h.frescos, ?_⟩
    apply enTurno_trasMensaje hturno.1 hlt (by have := hturno.2.2; omega) _ he
    intro h0
    rw [Regular, ht] at hreg
    exact hreg.2 (by omega)
  | termina ht =>
    have hturno := h.turno
    rw [ht] at hturno
    exact ⟨quantum_finDeTurno.trans h.quantum, frescos_finDeTurno h.frescos hturno.1, trivial⟩

/-! ## What is left to a trainer -/

def Evento.esMensaje : Evento → Bool
  | .atiende _ => true
  | _ => false

/-- One for a movement or a capture. -/
def atendido : Evento → ℕ
  | .atiende r => if r.tipoMensaje = 2 ∨ r.tipoMensaje = 3 then 1 else 0
  | _ => 0

/-- How many movements and captures of the trainer with the socket can come before those of
another one. -/
def presupuesto (q : ℕ) (t : ℤ) (s : Proceso) : ℕ :=
  match s.turno with
  | .libre => if s.mapa.listaListos.head?.map s.mapa.sock = some t then q else 0
  | .enCurso p remain => if s.mapa.sock p = t then remain else 0
  | .agotado p result => if s.mapa.sock p = t ∧ result ≠ 2 then 0 else q
  | .elegido _ _ => 0

/-- Another trainer is ready, and nobody is attended but the trainer with the socket. -/
def DeUno (t : ℤ) (s : Proceso) (e : Evento) : Prop :=
  (∃ u ∈ s.mapa.listaListos, s.mapa.sock u ≠ t) ∧
    (e.esMensaje = true → s.turno.de.map s.mapa.sock = some t)

instance (t : ℤ) (s : Proceso) (e : Evento) : Decidable (DeUno t s e) :=
  inferInstanceAs (Decidable (_ ∧ _))

theorem atendido_le (r : Recibido) : atendido (.atiende r) ≤ 1 := by
  unfold atendido
  dsimp only
  split <;> omega

theorem atendido_ajeno {e : Evento} (h : ∀ r, e ≠ .atiende r) : atendido e = 0 := by
  unfold atendido
  split
  · next r => exact absurd rfl (h r)
  · rfl

section Presupuesto
variable {q : ℕ} {t : ℤ} {m m' : Estado}

theorem presupuesto_ajeno {turno : Turno} (hs : Suma m m')
    (hrueda : EnRueda q ⟨m, turno⟩) (hotro : m.listaListos ≠ []) :
    presupuesto q t ⟨m', turno⟩ = presupuesto q t ⟨m, turno⟩ := by
  obtain ⟨p, l, hl⟩ := List.exists_cons_of_ne_nil hotro
  have hp : m.listaListos.head? = some p := by rw [hl, List.head?_cons]
  have hsock : m'.sock p = m.sock p := hs.sock p (hrueda.frescos p (List.mem_of_head? hp))
  cases turno with
  | libre =>
    unfold presupuesto
    dsimp only
    rw [hp, hs.head hp, Option.map_some, Option.map_some, hsock]
  | enCurso p' remain =>
    obtain rfl : p' = p := Option.some.inj (hrueda.turno.1.symm.trans hp)
    unfold presupuesto
    dsimp only
    rw [hsock]
  | agotado p' result =>
    unfold presupuesto
    dsimp only
    rw [hs.sock p' hrueda.turno.1]
  | elegido p' segundo => rfl

theorem presupuesto_le {s : Proceso} (h : EnRueda q s) : presupuesto q t s ≤ q := by
  have hturno := h.turno
  unfold presupuesto
  cases ht : s.turno with
  | libre =>
    dsimp only
    split <;> omega
  | enCurso p remain =>
    rw [ht] at hturno
    have hle : remain ≤ q := hturno.2.2
    dsimp only
    split <;> omega
  | agotado p result =>
    dsimp only
    split <;> omega
  | elegido p segundo => exact Nat.zero_le q

theorem presupuesto_mensaje {p k : ℕ} {r : Recibido} {result : ℤ} (hp : m.sock p = t)
    (hr : (r.tipoMensaje = 1 → r.pokemon ≠ none → k + 1 = q) ∧
      (k + 1 = 1 → r.tipoMensaje = 3 → r.pokemon.any (desconocido m) = false))
    (he : Efecto m (m.sock p) r result m') :
    atendido (.atiende r) + presupuesto q t ⟨m', trasMensaje p k result⟩ ≤ k + 1 := by
  have hle := atendido_le r
  have hsock : m'.sock p = t := by rw [he.sock, hp]
  cases he with
  | atendido _ =>
    by_cases h0 : k = 0
    · rw [trasMensaje_corta (.inr (.inr h0))]
      simp only [presupuesto, hsock]
      simpa [h0] using hle
    · rw [trasMensaje_sigue (by decide) (by decide) h0]
      simp only [presupuesto, hsock, if_true]
      omega
  | bloqueado _ =>
    rw [trasMensaje_corta (.inl rfl)]
    simp only [presupuesto, hsock]
    simpa using hle.trans (Nat.le_add_left 1 k)
  | conocio _ htipo hpok =>
    have hq := hr.1 htipo hpok
    rw [trasMensaje_corta (.inr (.inl rfl))]
    simp [presupuesto, atendido, htipo, hq]
  | desconocida _ htipo hid hdes =>
    have h0 : k ≠ 0 := by
      intro h0
      have hno := hr.2 (by omega) htipo
      rw [hid, Option.any_some, hdes] at hno
      cases hno
    rw [trasMensaje_sigue (by decide) (by decide) h0]
    simp only [presupuesto, hsock, if_true]
    omega
  | despedido _ htipo =>
    rw [trasMensaje_corta (.inl rfl)]
    simp only [presupuesto, hsock]
    simp [atendido, htipo]

/-- The turn of the trainer ends, and another one comes to the head. -/
theorem presupuesto_finDeTurno {p : ℕ} {result : ℤ} (hp : m.sock p = t)
    (hrueda : EnRueda q ⟨m, .agotado p result⟩) (hotro : ∃ u ∈ m.listaListos, m.sock u ≠ t)
    (hreg : Regular ⟨m, .agotado p result⟩ .termina) (hres : result ≠ 2) :
    presupuesto q t ⟨finDeTurno p result m, .libre⟩ = 0 := by
  have hdetras : ∀ u, (eliminarSocketListaListos t m).listaListos.head? = some u →
      m.sock u ≠ t := by
    intro u hu hut
    apply hreg
    rw [hp, hu, Option.map_some, hut]
  have hsig : ∀ u, (finDeTurno p result m).listaListos.head? = some u → m.sock u ≠ t := by
    obtain ⟨_, ⟨rfl, hhead⟩ | rfl | rfl⟩ := hrueda.turno
    · obtain ⟨u, hu, hne⟩ := hotro
      obtain ⟨l, hl⟩ := List.head?_eq_some_iff.mp hhead
      dsimp only at hl
      have herase : (eliminarSocketListaListos t m).listaListos = l := by
        simp [eliminarSocketListaListos, hl, hp]
      rw [herase] at hdetras
      intro v hv
      apply hdetras v
      cases l with
      | nil =>
        rw [hl, List.mem_singleton] at hu
        exact absurd (hu ▸ hp) hne
      | cons a l =>
        simpa [finDeTurno, hl] using hv
    · intro v hv
      apply hdetras v
      rw [← hp]
      simpa [finDeTurno] using hv
    · exact absurd rfl hres
  have hsock : (finDeTurno p result m).sock = m.sock := by
    unfold finDeTurno
    split
    · rfl
    split <;> rfl
  apply if_neg
  dsimp only
  intro h
  obtain ⟨v, hv, hvt⟩ := Option.map_eq_some_iff.mp h
  rw [hsock] at hvt
  exact hsig v hv hvt

end Presupuesto

/-- Every movement and every capture is paid from what is left to the trainer. -/
theorem presupuesto_paso {f : Fabrica} {q : ℕ} {t : ℤ} {s s' : Proceso} {e : Evento}
    (h : EnRueda q s) (hstep : PasoRegular f s e s') (huno : DeUno t s e) :
    atendido e + presupuesto q t s' ≤ presupuesto q t s := by
  obtain ⟨hpaso, hreg⟩ := hstep
  obtain ⟨hotro, hde⟩ := huno
  cases hpaso.cases_rr h.no_elegido with
  | ajeno hs hno _ =>
    obtain ⟨u, hu, _⟩ := hotro
    rw [atendido_ajeno hno, Nat.zero_add]
    exact (presupuesto_ajeno hs h (List.ne_nil_of_mem hu)).le
  | @empieza p hlibre hp =>
    simp only [presupuesto, hlibre, hp, h.quantum, atendido, Option.map_some, Option.some.injEq]
    omega
  | @atiende r p k result m ht he =>
    have hsock : s.mapa.sock p = t := by
      have hde := hde rfl
      rw [ht] at hde
      exact Option.some.inj hde
    have hturno := h.turno
    rw [ht] at hturno
    rw [Regular, ht] at hreg
    rw [Turno.Admite, h.quantum] at hreg
    have hpot : presupuesto q t s = k + 1 := by simp [presupuesto, ht, hsock]
    rw [hpot]
    exact presupuesto_mensaje hsock hreg he
  | @termina p result ht =>
    obtain ⟨m, turno⟩ := s
    dsimp only at ht
    subst ht
    rw [show atendido .termina = 0 from rfl, Nat.zero_add]
    by_cases hmio : m.sock p = t ∧ result ≠ 2
    · rw [presupuesto_finDeTurno hmio.1 h hotro hreg hmio.2]
      exact Nat.zero_le _
    · have hpot : presupuesto q t ⟨m, .agotado p result⟩ = q := if_neg hmio
      rw [hpot]
      simp only [presupuesto]
      split <;> omega

/-! ## What a trainer waits for -/

/-- How many movements and captures the trainers in front of `u` have left. -/
def espera (q u : ℕ) (s : Proceso) : ℕ :=
  let pos := s.mapa.listaListos.idxOf u
  match s.turno with
  | .libre => q * pos
  | .enCurso p remain => if s.mapa.sock p = s.mapa.sock u then 0 else q * (pos - 1) + remain
  | .agotado p result =>
    if result ≠ 2 ∧ s.mapa.listaListos.head? = some p then q * (pos - 1) else q * pos
  | .elegido _ _ => 0

/-- `u` is ready, before and after, and the turn is not of its trainer. -/
def Esperando (u : ℕ) (s s' : Proceso) : Prop :=
  u ∈ s.mapa.listaListos ∧ u ∈ s'.mapa.listaListos ∧
    s.turno.de.map s.mapa.sock ≠ some (s.mapa.sock u)

theorem idxOf_eraseP_le {P : ℕ → Bool} {u : ℕ} (hu : P u = false) (l : List ℕ) :
    (l.eraseP P).idxOf u ≤ l.idxOf u := by
  induction l with
  | nil => exact le_rfl
  | cons a l ih =>
    by_cases ha : a = u
    · subst ha
      rw [List.eraseP_cons_of_neg (by simp [hu])]
      simp
    · cases hP : P a with
      | true =>
        rw [List.eraseP_cons_of_pos hP, List.idxOf_cons_ne _ ha]
        exact Nat.le_succ _
      | false =>
        rw [List.eraseP_cons_of_neg (by simp [hP]), List.idxOf_cons_ne _ ha,
          List.idxOf_cons_ne _ ha]
        exact Nat.succ_le_succ ih

section Espera
variable {q p k u : ℕ} {m m' : Estado}

theorem idxOf_tail {l : List ℕ} (hp : l.head? = some p) (hne : p ≠ u) :
    l.idxOf u = l.tail.idxOf u + 1 := by
  obtain ⟨rest, rfl⟩ := List.head?_eq_some_iff.mp hp
  rw [List.idxOf_cons_ne _ hne, List.tail_cons]

theorem idxOf_append_mem {l nuevos : List ℕ} (hu : u ∈ l) : (l ++ nuevos).idxOf u = l.idxOf u := by
  rw [List.idxOf_append, if_pos hu]

theorem Suma.idxOf (hs : Suma m m') (hu : u ∈ m.listaListos) :
    m'.listaListos.idxOf u = m.listaListos.idxOf u := by
  obtain ⟨nuevos, hl, _⟩ := hs.listaListos
  rw [hl, idxOf_append_mem hu]

theorem espera_ajeno {turno : Turno} (hs : Suma m m') (hrueda : EnRueda q ⟨m, turno⟩)
    (hu : u ∈ m.listaListos) : espera q u ⟨m', turno⟩ = espera q u ⟨m, turno⟩ := by
  obtain ⟨a, l, hl⟩ := List.exists_cons_of_ne_nil (List.ne_nil_of_mem hu)
  have ha : m.listaListos.head? = some a := by rw [hl, List.head?_cons]
  have hidx := hs.idxOf hu
  have hsock : m'.sock u = m.sock u := hs.sock u (hrueda.frescos u hu)
  unfold espera
  dsimp only
  cases turno with
  | libre => simp only [hidx]
  | enCurso p remain =>
    have hp : m'.sock p = m.sock p :=
      hs.sock p (hrueda.frescos p (List.mem_of_head? hrueda.turno.1))
    simp only [hidx, hp, hsock]
  | agotado p result => simp only [hidx, ha, hs.head ha]
  | elegido p segundo => rfl

theorem espera_mensaje {r : Recibido} {result : ℤ} (hp : m.listaListos.head? = some p)
    (hne : m.sock p ≠ m.sock u)
    (hr : (r.tipoMensaje = 1 → r.pokemon ≠ none → k + 1 = q) ∧
      (k + 1 = 1 → r.tipoMensaje = 3 → r.pokemon.any (desconocido m) = false))
    (he : Efecto m (m.sock p) r result m') :
    atendido (.atiende r) + espera q u ⟨m', trasMensaje p k result⟩ ≤
      q * (m.listaListos.idxOf u - 1) + (k + 1) := by
  have hle := atendido_le r
  have hsock : m'.sock p ≠ m'.sock u := by rwa [he.sock]
  have hpu : p ≠ u := fun he => hne (he ▸ rfl)
  cases he with
  | atendido hq =>
    by_cases h0 : k = 0
    · rw [trasMensaje_corta (.inr (.inr h0))]
      simp only [espera, hq.listaListos, hp]
      rw [if_pos (by simp)]
      omega
    · rw [trasMensaje_sigue (by decide) (by decide) h0]
      simp only [espera, hq.listaListos, if_neg hsock]
      omega
  | bloqueado hq =>
    rw [trasMensaje_corta (.inl rfl)]
    simp only [espera, hq.listaListos, hp]
    rw [if_pos (by simp)]
    omega
  | conocio hq htipo hpok =>
    have hcon := hr.1 htipo hpok
    have hpos := idxOf_tail hp hpu
    rw [trasMensaje_corta (.inr (.inl rfl))]
    simp only [espera, hq.listaListos, atendido, htipo]
    rw [if_neg (by decide), if_neg (by simp), hpos, Nat.add_sub_cancel, Nat.mul_add]
    omega
  | desconocida hq htipo hid hdes =>
    have h0 : k ≠ 0 := by
      intro h0
      have hno := hr.2 (by omega) htipo
      rw [hid, Option.any_some, hdes] at hno
      cases hno
    rw [trasMensaje_sigue (by decide) (by decide) h0]
    simp only [espera, hq.listaListos, if_neg hsock]
    omega
  | @despedido m₁ hq htipo =>
    rw [trasMensaje_corta (.inl rfl)]
    obtain ⟨l, hl⟩ := List.head?_eq_some_iff.mp hp
    have herase : (eliminarSocketListaListos (m.sock p) m₁).listaListos = l := by
      simp [eliminarSocketListaListos, hq.listaListos, hq.sock, hl]
    have hpos : m.listaListos.idxOf u = l.idxOf u + 1 := by rw [hl, List.idxOf_cons_ne _ hpu]
    have hmul : q * (l.idxOf u - 1) ≤ q * l.idxOf u := Nat.mul_le_mul_left _ (Nat.sub_le _ _)
    simp only [espera, herase, atendido, if_neg htipo, hpos, Nat.add_sub_cancel]
    split <;> omega

theorem espera_finDeTurno {result : ℤ} (hne : m.sock p ≠ m.sock u)
    (hrueda : EnRueda q ⟨m, .agotado p result⟩) (hu : u ∈ m.listaListos) :
    espera q u ⟨finDeTurno p result m, .libre⟩ ≤ espera q u ⟨m, .agotado p result⟩ := by
  have hpu : p ≠ u := fun he => hne (he ▸ rfl)
  unfold espera
  dsimp only
  obtain ⟨_, ⟨rfl, hhead⟩ | rfl | rfl⟩ := hrueda.turno
  · dsimp only at hhead
    obtain ⟨l, hl⟩ := List.head?_eq_some_iff.mp hhead
    have hul : u ∈ l := by
      rw [hl] at hu
      exact (List.mem_cons.mp hu).resolve_left hpu.symm
    have hfin : (finDeTurno p 0 m).listaListos = l ++ [p] := by simp [finDeTurno, hl]
    rw [hfin, idxOf_append_mem hul, if_pos ⟨by decide, hhead⟩, hl, List.idxOf_cons_ne _ hpu,
      Nat.succ_sub_one]
  · by_cases hhead : m.listaListos.head? = some p
    · obtain ⟨l, hl⟩ := List.head?_eq_some_iff.mp hhead
      have hfin : (finDeTurno p 1 m).listaListos = l := by
        simp [finDeTurno, eliminarSocketListaListos, hl]
      rw [hfin, if_pos ⟨by decide, hhead⟩, hl, List.idxOf_cons_ne _ hpu, Nat.succ_sub_one]
    · rw [if_neg fun h => hhead h.2]
      apply Nat.mul_le_mul_left
      apply idxOf_eraseP_le
      simpa using hne.symm
  · rw [if_neg fun h => h.1 rfl]
    exact le_rfl

end Espera

theorem espera_paso {f : Fabrica} {q u : ℕ} {s s' : Proceso} {e : Evento} (h : EnRueda q s)
    (hstep : PasoRegular f s e s') (hesp : Esperando u s s') :
    atendido e + espera q u s' ≤ espera q u s := by
  obtain ⟨hpaso, hreg⟩ := hstep
  obtain ⟨hu, _, hde⟩ := hesp
  cases hpaso.cases_rr h.no_elegido with
  | ajeno hs hno _ =>
    rw [atendido_ajeno hno, Nat.zero_add]
    exact (espera_ajeno hs h hu).le
  | @empieza p hlibre hp =>
    rw [show atendido .empieza = 0 from rfl, Nat.zero_add]
    simp only [espera, hlibre, h.quantum]
    split
    · exact Nat.zero_le _
    · next hne =>
      have hpu : p ≠ u := fun he => hne (he ▸ rfl)
      rw [idxOf_tail hp hpu, Nat.add_sub_cancel, Nat.mul_add, Nat.mul_one]
  | @atiende r p k result m ht he =>
    have hne : s.mapa.sock p ≠ s.mapa.sock u := by
      intro hsock
      rw [ht] at hde
      exact hde (congrArg some hsock)
    have hturno := h.turno
    rw [ht] at hturno
    rw [Regular, ht] at hreg
    rw [Turno.Admite, h.quantum] at hreg
    have hpot : espera q u s = q * (s.mapa.listaListos.idxOf u - 1) + (k + 1) := by
      simp [espera, ht, hne]
    rw [hpot]
    exact espera_mensaje hturno.1 hne hreg he
  | @termina p result ht =>
    obtain ⟨m, turno⟩ := s
    dsimp only at ht
    subst ht
    rw [show atendido .termina = 0 from rfl, Nat.zero_add]
    exact espera_finDeTurno (fun he => hde (congrArg some he)) h hu

theorem espera_le {q u : ℕ} {s : Proceso} (h : EnRueda q s) :
    espera q u s ≤ q * s.mapa.listaListos.idxOf u := by
  have hpred : q * (s.mapa.listaListos.idxOf u - 1) ≤ q * s.mapa.listaListos.idxOf u :=
    Nat.mul_le_mul_left _ (Nat.sub_le _ _)
  have hturno := h.turno
  unfold espera
  dsimp only
  cases ht : s.turno with
  | libre => exact le_rfl
  | enCurso p remain =>
    rw [ht] at hturno
    dsimp only
    split
    · exact Nat.zero_le _
    · next hne =>
      have hpu : p ≠ u := fun he => hne (he ▸ rfl)
      have hle : remain ≤ q := hturno.2.2
      rw [idxOf_tail hturno.1 hpu, Nat.add_sub_cancel, Nat.mul_add, Nat.mul_one]
      exact Nat.add_le_add_left hle _
  | agotado p result =>
    dsimp only
    split
    · exact hpred
    · exact le_rfl
  | elegido p segundo => exact Nat.zero_le _

/-! ## Whole runs -/

structure Arranque (q : ℕ) (s : Proceso) : Prop where
  turno : s.turno = .libre
  listaListos : s.mapa.listaListos = []
  listaBloqueados : s.mapa.listaBloqueados = []
  quantum : s.mapa.quantum = q

theorem Arranque.enRueda {q : ℕ} {s : Proceso} (h : Arranque q s) : EnRueda q s := by
  refine ⟨h.quantum, by simp [h.listaListos], ?_⟩
  rw [h.turno]
  trivial

/-- The trainer whose turn has ended is at the end of the list, or out of it. -/
theorem EnRueda.atras {f : Fabrica} {q p : ℕ} {result : ℤ} {s s' : Proceso} (h : EnRueda q s)
    (ht : s.turno = .agotado p result) (hres : result ≠ 2)
    (hpaso : PasoMapa .rr f s .termina s') :
    (∃ l, s.mapa.listaListos = p :: l ∧ s'.mapa.listaListos = l ++ [p]) ∨
      s'.mapa.listaListos = s.mapa.listaListos.eraseP fun u => s.mapa.sock u = s.mapa.sock p := by
  have hturno := h.turno
  rw [ht] at hturno
  cases hpaso.cases_rr h.no_elegido with
  | ajeno _ _ hno => exact absurd rfl hno
  | termina ht' =>
    obtain ⟨rfl, rfl⟩ := Turno.agotado.inj (ht.symm.trans ht')
    obtain ⟨_, ⟨rfl, hhead⟩ | rfl | rfl⟩ := hturno
    · obtain ⟨l, hl⟩ := List.head?_eq_some_iff.mp hhead
      exact .inl ⟨l, hl, by simp [finDeTurno, hl]⟩
    · exact .inr rfl
    · exact absurd rfl hres

/-- In a run of regular steps no trainer has more than the quantum of its movements and captures
attended in a row, a ready one waits for no more than the quantum of each in front of it, and the
trainer whose turn has ended goes to the end of the list, if it does not leave it. -/
theorem turnos_del_quantum {f : Fabrica} {q : ℕ} (hq : 1 ≤ q) {s₀ s : Proceso} {es : List Evento}
    (h₀ : Arranque q s₀) (hrun : Run (PasoRegular f) s₀ es s) :
    (∀ t es' s', Run (fun s e s' => PasoRegular f s e s' ∧ DeUno t s e) s es' s' →
      (es'.map atendido).sum ≤ q) ∧
    (∀ u es' s', Run (fun s e s' => PasoRegular f s e s' ∧ Esperando u s s') s es' s' →
      (es'.map atendido).sum ≤ q * s.mapa.listaListos.idxOf u) ∧
    ∀ p result s', s.turno = .agotado p result → result ≠ 2 → PasoRegular f s .termina s' →
      (∃ l, s.mapa.listaListos = p :: l ∧ s'.mapa.listaListos = l ++ [p]) ∨
        s'.mapa.listaListos = s.mapa.listaListos.eraseP fun u => s.mapa.sock u = s.mapa.sock p := by
  have hs : EnRueda q s := hrun.invariant (fun _ _ _ h hstep => h.paso hq hstep) h₀.enRueda
  refine ⟨?_, ?_, ?_⟩
  · intro t es' s' h
    have hpaga : ∀ s e s', EnRueda q s → PasoRegular f s e s' ∧ DeUno t s e →
        EnRueda q s' ∧ atendido e + presupuesto q t s' ≤ presupuesto q t s :=
      fun _ _ _ hi hstep => ⟨hi.paso hq hstep.1, presupuesto_paso hi hstep.1 hstep.2⟩
    have hcost := h.potential hpaga hs
    have hle : presupuesto q t s ≤ q := presupuesto_le hs
    omega
  · intro u es' s' h
    have hpaga : ∀ s e s', EnRueda q s → PasoRegular f s e s' ∧ Esperando u s s' →
        EnRueda q s' ∧ atendido e + espera q u s' ≤ espera q u s :=
      fun _ _ _ hi hstep => ⟨hi.paso hq hstep.1, espera_paso hi hstep.1 hstep.2⟩
    have hcost := h.potential hpaga hs
    have hle : espera q u s ≤ q * s.mapa.listaListos.idxOf u := espera_le hs
    omega
  · intro p result s' ht hres hstep
    exact hs.atras ht hres hstep.1

/-! ## Two trainers -/

def mapaVacio : Estado where
  listaPokenest := [⟨80, [80], ⟨3, 3⟩, 2⟩]
  directorios := [⟨[80], 80, ⟨3, 3⟩⟩]
  pokeNests _ := []
  dirDeBill _ := []
  pcb _ :=
    { sockfd := 0, pathEntrenador := [], punto := ⟨0, 0⟩,
      proximaPokenest := ⟨80, [80], ⟨3, 3⟩, 2⟩, listaRecursos := 0, direccionDesconocida := true }
  recursos _ := []
  libre := 0
  listaListos := []
  listaBloqueados := []
  enviados := []
  quantum := 2
  batalla := false

def dosEntrenadores : List Evento := [.conecta 10 [97] 80, .conecta 11 [98] 80]

def conocer : Evento := .atiende ⟨1, some 80, none, false, false⟩

def mover : Evento := .atiende ⟨2, none, some 0, false, false⟩

/-- The trainer asks for a pokenest before the last message of every turn. -/
def turnosCortados : List Evento :=
  [.empieza, mover, conocer, .termina, .empieza, mover, conocer, .termina, .empieza, mover]

theorem turnos_del_quantum_dos : ∃ s : Proceso, s.mapa.listaListos.length = 2 ∧
    ∀ t es' s', Run (fun s e s' => PasoRegular fabricaDeNiveles s e s' ∧ DeUno t s e) s es' s' →
      (es'.map atendido).sum ≤ 2 := by
  have hrun : ∃ s, (dosEntrenadores ++ [.empieza, conocer, .termina]).foldlM (fun s e =>
      if Regular s e then pasoMapa .rr fabricaDeNiveles s e else none) ⟨mapaVacio, .libre⟩ = some s ∧
      s.mapa.listaListos.length = 2 := ⟨_, rfl, rfl⟩
  obtain ⟨s, hs, hlen⟩ := hrun
  exact ⟨s, hlen, (turnos_del_quantum (by decide) ⟨rfl, rfl, rfl, rfl⟩ (Run.of_foldlM hs)).1⟩

theorem no_todo_turno_del_quantum : ¬ ∀ (f : Fabrica) (q : ℕ) (s₀ s : Proceso) (es : List Evento),
    1 ≤ q → Arranque q s₀ → Run (PasoMapa .rr f) s₀ es s →
    ∀ t es' s', Run (fun s e s' => PasoMapa .rr f s e s' ∧ DeUno t s e) s es' s' →
      (es'.map atendido).sum ≤ q := by
  intro h
  have hrun : ∃ s, dosEntrenadores.foldlM (fun s e =>
      if True then pasoMapa .rr fabricaDeNiveles s e else none) ⟨mapaVacio, .libre⟩ = some s ∧
      ∃ s', turnosCortados.foldlM (fun s e =>
        if DeUno 10 s e then pasoMapa .rr fabricaDeNiveles s e else none) s = some s' :=
    ⟨_, rfl, _, rfl⟩
  obtain ⟨s, hs, s', hs'⟩ := hrun
  have hes : Run (PasoMapa .rr fabricaDeNiveles) ⟨mapaVacio, .libre⟩ dosEntrenadores s :=
    (Run.of_foldlM hs).mono fun _ _ _ hstep => hstep.1
  have hle := h fabricaDeNiveles 2 _ s _ (by decide) ⟨rfl, rfl, rfl, rfl⟩ hes 10 _ s'
    (Run.of_foldlM hs')
  revert hle
  decide

end TpSo.Mapa
