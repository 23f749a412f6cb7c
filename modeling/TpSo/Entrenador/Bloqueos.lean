import TpSo.Entrenador.Aventura
import TpSo.Rocket.Tiempo

/-!
# The time a trainer is blocked

`completarMapa` keeps the time at which a block begins and the time at which it ends in two strings
that live as long as the map, and appends to them: from the second block on they hold the times of
all of them, one after another, and `calcular` reads the first.
-/

namespace TpSo.Entrenador

open Rocket (Tiempo dosPuntos calcular sumar)

/-- `%H`, `%M` and `%S` of `strftime`. -/
def dosDigitos (n : ℕ) : List UInt8 := [UInt8.ofNat (48 + n / 10), UInt8.ofNat (48 + n % 10)]

/-- `temporal_get_string_time` at a time of day; the milliseconds are not padded. -/
def temporalGetStringTime (t : Tiempo) : List UInt8 :=
  dosDigitos t.horas.toNat ++ dosPuntos :: (dosDigitos t.minutos.toNat ++ dosPuntos ::
    (dosDigitos t.segundos.toNat ++ dosPuntos :: decimalOfNat t.milisegundos.toNat))

theorem temporalGetStringTime_ne_nil (t : Tiempo) : temporalGetStringTime t ≠ [] := by
  simp [temporalGetStringTime, dosDigitos]

/-- The adventure with what it keeps of the time; `bloqueado` is
`entrenadorActual->tiempo->bloqueado`. -/
structure Bloqueos where
  aventura : Aventura
  inicioDelBloqueo : List UInt8
  finDelBloqueo : List UInt8
  bloqueado : List UInt8
  deriving DecidableEq

/-- `completarMapa` up to its loop. -/
def Bloqueos.alEntrar (a : Aventura) (socket : ℤ) (bloqueado : List UInt8) : Bloqueos :=
  ⟨entrarAlMapa a socket, [], [], bloqueado⟩

/-- A round of the loop: what is received in it, the clock, and the arguments of `calcular` if it is
called. -/
structure Ronda where
  respuesta : Respuesta
  instante : Tiempo
  llamada : Option (List UInt8 × List UInt8)
  deriving DecidableEq

/-- `string_append` of the clock where the source has it. There is no sum of a time that cannot be
read. -/
def completarRonda (objetivos : List UInt8) (b : Bloqueos) (respuesta : Respuesta)
    (instante : Tiempo) : Option (Bloqueos × Option (List UInt8 × List UInt8)) := do
  let (aventura, _) ← paso objetivos b.aventura respuesta
  match respuesta with
  | .estasBloqueado =>
    let inicioDelBloqueo := b.inicioDelBloqueo ++ temporalGetStringTime instante
    pure ({ b with aventura := aventura, inicioDelBloqueo := inicioDelBloqueo }, none)
  | .aviso desbloqueo =>
    if desbloqueo = estasDesbloqueado then do
      let finDelBloqueo := b.finDelBloqueo ++ temporalGetStringTime instante
      let tiempo ← calcular b.inicioDelBloqueo finDelBloqueo
      let bloqueado ← sumar b.bloqueado tiempo
      pure (⟨aventura, b.inicioDelBloqueo, finDelBloqueo, bloqueado⟩,
        some (b.inicioDelBloqueo, finDelBloqueo))
    else pure ({ b with aventura := aventura }, none)
  | _ => pure ({ b with aventura := aventura }, none)

def PasoConHora (objetivos : List UInt8) (b : Bloqueos) (e : Ronda) (b' : Bloqueos) : Prop :=
  completarRonda objetivos b e.respuesta e.instante = some (b', e.llamada)

/-- The rounds from what is received and the clock. -/
def correr (objetivos : List UInt8) :
    Bloqueos → List (Respuesta × Tiempo) → Option (List Ronda × Bloqueos)
  | b, [] => some ([], b)
  | b, (respuesta, instante) :: resto => do
    let (b₁, llamada) ← completarRonda objetivos b respuesta instante
    let (es, b') ← correr objetivos b₁ resto
    pure (⟨respuesta, instante, llamada⟩ :: es, b')

theorem run_correr {objetivos : List UInt8} {b b' : Bloqueos} {es : List Ronda}
    {entradas : List (Respuesta × Tiempo)} (h : correr objetivos b entradas = some (es, b')) :
    Run (PasoConHora objetivos) b es b' := by
  induction entradas generalizing b es with
  | nil =>
    simp only [correr, Option.some.injEq, Prod.mk.injEq] at h
    obtain ⟨rfl, rfl⟩ := h
    exact .nil b
  | cons entrada resto ih =>
    obtain ⟨⟨b₁, llamada⟩, hronda, h⟩ := Option.bind_eq_some_iff.mp h
    obtain ⟨⟨es₁, b₂⟩, hresto, h⟩ := Option.bind_eq_some_iff.mp h
    simp only [Option.pure_def, Option.some.injEq, Prod.mk.injEq] at h
    obtain ⟨rfl, rfl⟩ := h
    exact .cons hronda (ih hresto)

/-! ## The episodes -/

namespace Ronda

def hora (e : Ronda) : List UInt8 := temporalGetStringTime e.instante

def comienza (e : Ronda) : Bool := e.respuesta = .estasBloqueado

def termina (e : Ronda) : Bool := e.respuesta = .aviso estasDesbloqueado

end Ronda

def comienzos (es : List Ronda) : List (List UInt8) := (es.filter Ronda.comienza).map Ronda.hora

def finales (es : List Ronda) : List (List UInt8) := (es.filter Ronda.termina).map Ronda.hora

/-- The episodes: each ends the last block that has begun, which is one of `inicio` at first. -/
def episodiosDesde (inicio : List UInt8) : List Ronda → List (List UInt8 × List UInt8)
  | [] => []
  | e :: es =>
    if e.comienza then episodiosDesde e.hora es
    else if e.termina then (inicio, e.hora) :: episodiosDesde inicio es
    else episodiosDesde inicio es

def episodios (es : List Ronda) : List (List UInt8 × List UInt8) := episodiosDesde [] es

/-- The sum of the durations of the episodes, one after another. -/
def acumular (bloqueado : List UInt8) (es : List (List UInt8 × List UInt8)) :
    Option (List UInt8) :=
  es.foldlM (fun total e => calcular e.1 e.2 >>= sumar total) bloqueado

/-- What `calcular` is called with after the rounds `antes` is the time at which the last block
began and the time at which it ends. -/
def Ronda.SuEpisodio (antes : List Ronda) (e : Ronda) : Prop :=
  ∀ args, e.llamada = some args → args = ((comienzos antes).getLastD [], e.hora)

/-- Every call is about its own episode, and the time blocked is that of all of them. -/
structure EpisodiosAparte (bloqueado : List UInt8) (es : List Ronda) (b : Bloqueos) : Prop where
  llamadas : ∀ antes e, antes ++ [e] <+: es → e.SuEpisodio antes
  suma : acumular bloqueado (episodios es) = some b.bloqueado

section Listas
variable {antes : List Ronda} {e : Ronda}

theorem comienzos_concat : comienzos (antes ++ [e]) =
    comienzos antes ++ if e.comienza then [e.hora] else [] := by
  cases h : e.comienza <;> simp [comienzos, List.filter_append, h]

theorem finales_concat : finales (antes ++ [e]) =
    finales antes ++ if e.termina then [e.hora] else [] := by
  cases h : e.termina <;> simp [finales, List.filter_append, h]

theorem not_termina_of_comienza (h : e.comienza = true) : e.termina = false := by
  simp only [Ronda.comienza, decide_eq_true_eq] at h
  simp [Ronda.termina, h]

theorem episodiosDesde_concat (inicio : List UInt8) : episodiosDesde inicio (antes ++ [e]) =
    episodiosDesde inicio antes ++
      if e.termina then [((comienzos antes).getLastD inicio, e.hora)] else [] := by
  induction antes generalizing inicio with
  | nil =>
    cases hc : e.comienza with
    | true => simp [episodiosDesde, hc, not_termina_of_comienza hc]
    | false => cases ht : e.termina <;> simp [episodiosDesde, hc, ht, comienzos]
  | cons e₁ antes ih =>
    simp only [List.cons_append, episodiosDesde]
    cases hc : e₁.comienza with
    | true =>
      have hprimero : comienzos (e₁ :: antes) = e₁.hora :: comienzos antes := by
        simp [comienzos, hc]
      rw [if_pos rfl, if_pos rfl, ih, hprimero, List.getLastD_cons]
    | false =>
      have hresto : comienzos (e₁ :: antes) = comienzos antes := by
        simp [comienzos, hc]
      rw [hresto]
      cases ht : e₁.termina <;> simp [ih]

theorem mem_comienzos_ne_nil {t : List UInt8} (h : t ∈ comienzos antes) : t ≠ [] := by
  obtain ⟨e, _, rfl⟩ := List.mem_map.mp h
  exact temporalGetStringTime_ne_nil e.instante

/-- Several times one after another are not the last of them. -/
theorem flatten_eq_getLastD_iff {ts : List (List UInt8)} (h : ∀ t ∈ ts, t ≠ []) (hne : ts ≠ []) :
    ts.flatten = ts.getLastD [] ↔ ts.length ≤ 1 := by
  obtain ⟨primeros, t, rfl⟩ := List.eq_nil_or_concat ts |>.resolve_left hne
  rw [List.concat_eq_append, List.getLastD_concat, List.flatten_append, List.flatten_singleton,
    List.append_left_eq_self]
  cases primeros with
  | nil => simp
  | cons t₁ primeros =>
    refine iff_of_false (fun hvacio => ?_) (by simp)
    exact h t₁ (by simp) (List.flatten_eq_nil_iff.mp hvacio t₁ List.mem_cons_self)

end Listas

/-! ## Round by round -/

/-- A block has begun and has not ended. -/
def Estado.enBloqueo : Estado → Bool
  | bloqueado | enDeadlock => true
  | sinPokenest | enCamino | enPokenest | conTodosLosPokemons | mapaCompletado => false

section Rondas
variable {objetivos : List UInt8}

/-- The state before and after a round, as far as being blocked goes. -/
theorem paso_enBloqueo {a a' : Aventura} {respuesta : Respuesta} {sucesos : List Suceso}
    (h : paso objetivos a respuesta = some (a', sucesos)) :
    respuesta = .estasBloqueado ∨
    (respuesta = .aviso estasDesbloqueado ∧ a.estado.enBloqueo = true ∧
      a'.estado.enBloqueo = false) ∨
    (respuesta ≠ .estasBloqueado ∧ respuesta ≠ .aviso estasDesbloqueado ∧
      (a'.estado.enBloqueo = true → a.estado.enBloqueo = true)) := by
  have hpaso : Paso objetivos a (respuesta, sucesos) a' := h
  rcases hpaso.cases with ⟨_, hr, rfl, -⟩ | ⟨_, _, hr, -, -, rfl, -⟩ | ⟨hr, hest, rfl, -⟩ |
    ⟨hr, -, rfl, -⟩ | ⟨hr, -⟩ | ⟨desbloqueo, hr, hest, rfl, -⟩ | ⟨_, hr, -, -, rfl, -⟩ |
    ⟨_, _, hr, -, hest, -⟩ | ⟨hr, -, rfl, -⟩
  case inr.inr.inr.inr.inl => exact .inl hr
  case inr.inr.inr.inr.inr.inl =>
    subst hr
    by_cases hfin : desbloqueo = estasDesbloqueado
    · subst hfin
      exact .inr (.inl ⟨rfl, by rw [hest]; rfl, rfl⟩)
    · exact .inr (.inr ⟨by simp, by simpa using hfin, fun _ => by rw [hest]; rfl⟩)
  case inl =>
    -- a signal
    rcases hr with rfl | rfl <;> exact .inr (.inr ⟨by simp, by simp, id⟩)
  case inr.inr.inl =>
    subst hr
    refine .inr (.inr ⟨by simp, by simp, fun hb => ?_⟩)
    dsimp only at hb
    rw [avanzar_estado _ hest] at hb
    split at hb <;> cases hb
  case inr.inr.inr.inr.inr.inr.inr.inl =>
    subst hr
    exact .inr (.inr ⟨by simp, by simp, fun _ => by rw [hest]; rfl⟩)
  all_goals
    -- the trainer is not blocked after the round
    subst hr
    refine .inr (.inr ⟨by simp, by simp, fun hb => ?_⟩)
    dsimp only [handShake] at hb
    first | cases hb | (split at hb <;> cases hb)

/-- Only a trainer who is blocked is told that it is over. -/
theorem enBloqueo_of_desbloqueado {a a' : Aventura} {sucesos : List Suceso}
    (h : paso objetivos a (.aviso estasDesbloqueado) = some (a', sucesos)) :
    a.estado.enBloqueo = true ∧ a'.estado.enBloqueo = false := by
  rcases paso_enBloqueo h with hno | ⟨-, hantes, hdespues⟩ | ⟨-, hno, -⟩
  · cases hno
  · exact ⟨hantes, hdespues⟩
  · exact absurd rfl hno

variable {b b' : Bloqueos} {e : Ronda} {es : List Ronda}

/-- What a round does to the two strings and to the time blocked. -/
theorem PasoConHora.cases (h : PasoConHora objetivos b e b') :
    (∃ sucesos, paso objetivos b.aventura e.respuesta = some (b'.aventura, sucesos)) ∧
    ((e.respuesta = .estasBloqueado ∧ e.llamada = none ∧
        b'.inicioDelBloqueo = b.inicioDelBloqueo ++ e.hora ∧ b'.finDelBloqueo = b.finDelBloqueo ∧
        b'.bloqueado = b.bloqueado) ∨
      (e.respuesta = .aviso estasDesbloqueado ∧
        e.llamada = some (b.inicioDelBloqueo, b.finDelBloqueo ++ e.hora) ∧
        b'.inicioDelBloqueo = b.inicioDelBloqueo ∧ b'.finDelBloqueo = b.finDelBloqueo ++ e.hora ∧
        (calcular b.inicioDelBloqueo (b.finDelBloqueo ++ e.hora) >>= sumar b.bloqueado) =
          some b'.bloqueado) ∨
      (e.comienza = false ∧ e.termina = false ∧ e.llamada = none ∧
        b' = { b with aventura := b'.aventura })) := by
  obtain ⟨respuesta, instante, llamada⟩ := e
  simp only [PasoConHora, completarRonda] at h
  cases hp : paso objetivos b.aventura respuesta with
  | none =>
    rw [hp] at h
    cases h
  | some r =>
    obtain ⟨aventura, sucesos⟩ := r
    rw [hp] at h
    simp only [Option.bind_eq_bind, Option.bind_some] at h
    split at h
    · simp only [Option.pure_def, Option.some.injEq, Prod.mk.injEq] at h
      obtain ⟨rfl, rfl⟩ := h
      exact ⟨⟨sucesos, rfl⟩, .inl ⟨rfl, rfl, rfl, rfl, rfl⟩⟩
    · next desbloqueo =>
      split at h
      · next hfin =>
        subst hfin
        obtain ⟨tiempo, htiempo, h⟩ := Option.bind_eq_some_iff.mp h
        obtain ⟨bloqueado, hsuma, h⟩ := Option.bind_eq_some_iff.mp h
        simp only [Option.pure_def, Option.some.injEq, Prod.mk.injEq] at h
        obtain ⟨rfl, rfl⟩ := h
        refine ⟨⟨sucesos, rfl⟩, .inr (.inl ⟨rfl, rfl, rfl, rfl, ?_⟩)⟩
        exact Option.bind_eq_some_iff.mpr ⟨tiempo, htiempo, hsuma⟩
      · next hotro =>
        simp only [Option.pure_def, Option.some.injEq, Prod.mk.injEq] at h
        obtain ⟨rfl, rfl⟩ := h
        refine ⟨⟨sucesos, rfl⟩, .inr (.inr ⟨rfl, ?_, rfl, rfl⟩)⟩
        simpa [Ronda.termina] using hotro
    · next hno hnoAviso =>
      simp only [Option.pure_def, Option.some.injEq, Prod.mk.injEq] at h
      obtain ⟨rfl, rfl⟩ := h
      refine ⟨⟨sucesos, rfl⟩, .inr (.inr ⟨?_, ?_, rfl, rfl⟩)⟩
      · simpa [Ronda.comienza] using hno
      · simpa [Ronda.termina] using hnoAviso estasDesbloqueado

/-- What the strings hold after the rounds `es`. -/
structure Anota (es : List Ronda) (b : Bloqueos) : Prop where
  inicio : b.inicioDelBloqueo = (comienzos es).flatten
  fin : b.finDelBloqueo = (finales es).flatten
  pendiente : (finales es).length + (if b.aventura.estado.enBloqueo then 1 else 0) ≤
    (comienzos es).length

theorem Anota.paso (h : Anota es b) (hpaso : PasoConHora objetivos b e b') :
    Anota (es ++ [e]) b' := by
  obtain ⟨hinicio, hfin, hpendiente⟩ := h
  obtain ⟨⟨sucesos, hp⟩, hcasos⟩ := hpaso.cases
  rcases hcasos with ⟨hr, -, hi, hf, -⟩ | ⟨hr, -, hi, hf, -⟩ | ⟨hc, ht, -, hb⟩
  · have hc : e.comienza = true := decide_eq_true hr
    have ht := not_termina_of_comienza hc
    refine ⟨?_, ?_, ?_⟩
    · rw [hi, hinicio, comienzos_concat, if_pos hc, List.flatten_append, List.flatten_singleton]
    · rw [hf, hfin, finales_concat, ht]
      simp
    · rw [comienzos_concat, finales_concat, if_pos hc, ht]
      simp only [Bool.false_eq_true, if_false, List.append_nil, List.length_append,
        List.length_singleton]
      split <;> omega
  · have ht : e.termina = true := decide_eq_true hr
    have hc : e.comienza = false := by simp [Ronda.comienza, hr]
    obtain ⟨hantes, hdespues⟩ := enBloqueo_of_desbloqueado (hr ▸ hp)
    refine ⟨?_, ?_, ?_⟩
    · rw [hi, hinicio, comienzos_concat, hc]
      simp
    · rw [hf, hfin, finales_concat, if_pos ht, List.flatten_append, List.flatten_singleton]
    · rw [hantes] at hpendiente
      rw [comienzos_concat, finales_concat, if_pos ht, hc, hdespues]
      simpa using hpendiente
  · have hsigue : b'.aventura.estado.enBloqueo = true → b.aventura.estado.enBloqueo = true := by
      rcases paso_enBloqueo hp with hr | ⟨hr, -⟩ | ⟨-, -, hsigue⟩
      · rw [Ronda.comienza, hr] at hc
        cases hc
      · rw [Ronda.termina, hr] at ht
        cases ht
      · exact hsigue
    have hcomienzos : comienzos (es ++ [e]) = comienzos es := by
      rw [comienzos_concat, hc]
      simp
    have hfinales : finales (es ++ [e]) = finales es := by
      rw [finales_concat, ht]
      simp
    rw [hb]
    refine ⟨?_, ?_, ?_⟩
    · rw [hcomienzos, hinicio]
    · rw [hfinales, hfin]
    · rw [hcomienzos, hfinales]
      cases hest : b'.aventura.estado.enBloqueo with
      | true =>
        rw [hsigue hest] at hpendiente
        exact hpendiente
      | false => exact (Nat.le_add_right _ _).trans hpendiente

/-- A call is about its own episode if and only if no block has begun before that one. -/
theorem suEpisodio_iff (h : Anota es b) (hpaso : PasoConHora objetivos b e b') :
    e.SuEpisodio es ↔ (e.termina = true → (comienzos es).length ≤ 1) := by
  obtain ⟨⟨sucesos, hp⟩, hcasos⟩ := hpaso.cases
  rcases hcasos with ⟨hr, hno, -⟩ | ⟨hr, hllamada, -⟩ | ⟨-, ht, hno, -⟩
  · have ht := not_termina_of_comienza (decide_eq_true hr)
    exact iff_of_true (fun args hargs => by rw [hno] at hargs; cases hargs)
      (fun hc => by rw [ht] at hc; cases hc)
  · have hantes := (enBloqueo_of_desbloqueado (hr ▸ hp)).1
    have hpendiente := h.pendiente
    rw [if_pos hantes] at hpendiente
    have hne : comienzos es ≠ [] := List.ne_nil_of_length_pos (by omega)
    rw [Ronda.SuEpisodio, hllamada, h.inicio, h.fin]
    simp only [Option.some.injEq, forall_eq', Prod.mk.injEq, List.append_left_eq_self,
      flatten_eq_getLastD_iff (fun _ => mem_comienzos_ne_nil) hne]
    refine ⟨fun h _ => h.1, fun h => ?_⟩
    -- with one block begun, none had ended
    have hle := h (decide_eq_true hr)
    have hvacia : finales es = [] := List.eq_nil_of_length_eq_zero (by omega)
    exact ⟨hle, by rw [hvacia]; rfl⟩
  · exact iff_of_true (fun args hargs => by rw [hno] at hargs; cases hargs)
      (fun hc => by rw [ht] at hc; cases hc)

end Rondas

section Corridas
variable {objetivos : List UInt8} {a : Aventura} {socket : ℤ} {bloqueado : List UInt8}
  {es : List Ronda} {b : Bloqueos}

theorem anota_corrida (h : Run (PasoConHora objetivos) (.alEntrar a socket bloqueado) es b) :
    Anota es b := by
  have hinicio : Anota [] (.alEntrar a socket bloqueado) := ⟨rfl, rfl, Nat.le_refl 0⟩
  exact h.invariant_history (I := fun b es => Anota es b)
    (fun _ _ _ _ hanota hpaso => hanota.paso hpaso) hinicio

/-- With every call about its own episode, the sum is that of the episodes. -/
theorem acumular_corrida (h : Run (PasoConHora objetivos) (.alEntrar a socket bloqueado) es b) :
    (∀ antes e, antes ++ [e] <+: es → e.SuEpisodio antes) →
      acumular bloqueado (episodios es) = some b.bloqueado := by
  refine h.invariant_history (I := fun b es => (∀ antes e, antes ++ [e] <+: es →
    e.SuEpisodio antes) → acumular bloqueado (episodios es) = some b.bloqueado)
    (fun b e b' es ih hpaso hsuyas => ?_) fun _ => rfl
  have hsuma := ih fun antes e hpre => hsuyas antes e (hpre.trans (List.prefix_append _ _))
  have hsuya := hsuyas es e (List.prefix_refl _)
  rw [episodios, episodiosDesde_concat, acumular, List.foldlM_append]
  change (acumular bloqueado (episodios es) >>= _) = _
  rw [hsuma, Option.bind_eq_bind, Option.bind_some]
  rcases hpaso.cases.2 with ⟨hr, -, -, -, hb⟩ | ⟨hr, hllamada, -, -, hb⟩ | ⟨-, ht, -, hb⟩
  · rw [not_termina_of_comienza (decide_eq_true hr), hb]
    rfl
  · have ht : e.termina = true := decide_eq_true hr
    obtain ⟨hinicio, hfin⟩ := Prod.mk.inj (hsuya _ hllamada)
    rw [if_pos ht, ← hb, hinicio, hfin]
    simp
  · rw [ht, hb]
    rfl

end Corridas

/-- Every call of `calcular` is about its own episode, and the time blocked is that of the episodes,
if and only if no block ends after a second one has begun. -/
theorem bloqueado_por_episodios {objetivos : List UInt8} {a : Aventura} {socket : ℤ}
    {bloqueado : List UInt8} {es : List Ronda} {b : Bloqueos}
    (h : Run (PasoConHora objetivos) (.alEntrar a socket bloqueado) es b) :
    EpisodiosAparte bloqueado es b ↔
      ∀ antes e, antes ++ [e] <+: es → e.termina = true → (comienzos antes).length ≤ 1 := by
  have hcada : ∀ antes e, antes ++ [e] <+: es →
      (e.SuEpisodio antes ↔ (e.termina = true → (comienzos antes).length ≤ 1)) := by
    intro antes e hpre
    obtain ⟨b₁, b₂, hrun, hpaso⟩ := h.of_prefix hpre
    exact suEpisodio_iff (anota_corrida hrun) hpaso
  constructor
  · intro haparte antes e hpre
    exact (hcada antes e hpre).mp (haparte.llamadas antes e hpre)
  · intro hunico
    have hsuyas : ∀ antes e, antes ++ [e] <+: es → e.SuEpisodio antes := fun antes e hpre =>
      (hcada antes e hpre).mpr (hunico antes e hpre)
    exact ⟨hsuyas, acumular_corrida h hsuyas⟩

/-- `"00:00:00:0000"`, with which the trainer starts. -/
def sinBloqueos : List UInt8 := [48, 48, 58, 48, 48, 58, 48, 48, 58, 48, 48, 48, 48]

/-- The way to a pokenest at `(0, 0)`, where the trainer is, and five seconds blocked there. -/
def cincoSegundos : List (Respuesta × Tiempo) :=
  [(.coordenada ⟨0, 0⟩, 0), (.ok, 0), (.estasBloqueado, ⟨10, 0, 0, 0⟩),
    (.aviso estasDesbloqueado, ⟨10, 0, 5, 0⟩)]

theorem bloqueado_por_episodios_cincoSegundos : ∃ es b,
    correr [66] (.alEntrar recienLlegado 5 sinBloqueos) cincoSegundos = some (es, b) ∧
      EpisodiosAparte sinBloqueos es b := by
  obtain ⟨es, b, hes, huno⟩ : ∃ es b,
      correr [66] (.alEntrar recienLlegado 5 sinBloqueos) cincoSegundos = some (es, b) ∧
        (comienzos es).length = 1 := by
    refine ⟨_, _, Option.eq_some_of_isSome (by decide +kernel), ?_⟩
    decide +kernel
  refine ⟨es, b, hes, (bloqueado_por_episodios (run_correr hes)).mpr fun antes e hpre _ => ?_⟩
  have hantes : antes <+: es := (List.prefix_append antes [e]).trans hpre
  have hle : (comienzos antes).length ≤ (comienzos es).length := by
    unfold comienzos
    rw [List.length_map, List.length_map]
    exact (hantes.filter _).length_le
  exact hle.trans huno.le

/-- Another second, an hour later: ten seconds are counted and not six. -/
theorem no_todo_episodio_aparte : ∃ es b,
    correr [66] (.alEntrar recienLlegado 5 sinBloqueos)
      (cincoSegundos ++ [(.estasBloqueado, ⟨11, 0, 0, 0⟩),
        (.aviso estasDesbloqueado, ⟨11, 0, 1, 0⟩)]) = some (es, b) ∧
      ¬ EpisodiosAparte sinBloqueos es b ∧
      b.bloqueado = [48, 58, 48, 58, 49, 48, 58, 48] ∧
      acumular sinBloqueos (episodios es) = some [48, 58, 48, 58, 54, 58, 48] := by
  obtain ⟨es, b, hes, hdiez, hseis⟩ : ∃ es b,
      correr [66] (.alEntrar recienLlegado 5 sinBloqueos)
        (cincoSegundos ++ [(.estasBloqueado, ⟨11, 0, 0, 0⟩),
          (.aviso estasDesbloqueado, ⟨11, 0, 1, 0⟩)]) = some (es, b) ∧
        b.bloqueado = [48, 58, 48, 58, 49, 48, 58, 48] ∧
        acumular sinBloqueos (episodios es) = some [48, 58, 48, 58, 54, 58, 48] := by
    refine ⟨_, _, Option.eq_some_of_isSome (by decide +kernel), ?_⟩
    decide +kernel
  refine ⟨es, b, hes, fun haparte => ?_, hdiez, hseis⟩
  have hsuma := haparte.suma
  rw [hseis, hdiez] at hsuma
  exact absurd hsuma (by decide)

end TpSo.Entrenador
