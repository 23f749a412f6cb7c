import TpSo.Mapa.Dibujo

/-!
# The locks of the map

By every path, whatever the other threads do in between, each function returns with the locks as
they were, but for `eliminarSocketListaListos` when it finds `listaListos` empty. The planner calls
it for a trainer that its handler has already taken out: the last one. As long as that does not
happen, and the drawings are answered, the planner can always take `mutexListaListos` again.
-/

namespace TpSo.Mapa.Hilado

open Locking

/-- `eliminarSocketListaListos` does not find the list empty. -/
def Encuentra : (o : Orden) → o.Respuesta → Prop
  | .listSizeAlEliminar, sizeList => sizeList ≠ 0
  | _, _ => True

/-- `capturarPokemon` takes `mutexListaListos` inside `mutexListaBloqueados`. -/
def Cerrojo.rango : Cerrojo → ℕ
  | mutexListaBloqueados => 0
  | mutexListaListos => 1
  | mutexListaPokenest => 2

/-- The program leaves the locks as they were. -/
abbrev Deja {α : Type} (x : Programa α) (g : Cerrojo → Bool) : Prop :=
  Balanced Cerrojo.rango Encuentra x g

section Deja
variable {α : Type} {g : Cerrojo → Bool}

theorem deja_conPuntero {p : Option ℕ} {f : ℕ → Programa α} (hf : ∀ p, Deja (f p) g) :
    Deja (conPuntero p f) g := by
  cases p with
  | some p => exact hf p
  | none => exact Balanced.stop

theorem deja_repetir {x : Programa PUnit} (hx : Deja x g) (n : ℕ) : Deja (repetir x n) g := by
  induction n with
  | zero => exact Balanced.pure _
  | succ n ih => exact hx.bind fun _ => ih

theorem deja_pedirDibujo : Deja pedirDibujo g :=
  (Balanced.other _).bind fun _ => Balanced.other _

theorem deja_buscar (sockfd : ℤ) (is : List ℕ) (p : Option ℕ) : Deja (buscar sockfd p is) g := by
  induction is generalizing p with
  | nil => exact Balanced.pure _
  | cons i is ih =>
    apply (Balanced.other _).bind
    intro pcb
    apply deja_conPuntero
    intro p
    apply (Balanced.other _).bind
    intro s
    split
    · exact Balanced.pure _
    · exact ih _

theorem deja_getPcbBySockFdListos (hl : Above Cerrojo.rango g .mutexListaListos) (sockfd : ℤ) :
    Deja (getPcbBySockFdListos sockfd) g := by
  apply follows_acquire hl
  apply (Balanced.other _).follows
  intro cantidad
  apply (deja_buscar sockfd _ none).follows
  exact fun _ => follows_release hl (Balanced.pure _)

theorem deja_getPokenestById (hp : Above Cerrojo.rango g .mutexListaPokenest) :
    Deja getPokenestById g := by
  apply follows_acquire hp
  exact follows_release_last hp

theorem deja_eliminarDesde {l : Lista} {antes : ℕ → Programa PUnit} (sockfd : ℤ)
    (ha : ∀ p, Deja (antes p) g) (is : List ℕ) : Deja (eliminarDesde l sockfd antes is) g := by
  induction is with
  | nil => exact Balanced.pure _
  | cons i is ih =>
    apply (Balanced.other _).bind
    intro pcb
    apply deja_conPuntero
    intro p
    apply (Balanced.other _).bind
    intro s
    split
    · exact (ha p).bind fun _ => Balanced.other _
    · exact ih

theorem deja_despedirDibujo (b : Bool) (p : ℕ) : Deja (despedirDibujo b p) g :=
  (Balanced.other _).bind fun _ => deja_pedirDibujo

/-- With a trainer in the list it comes to its unlock. -/
theorem deja_eliminarSocketListaListos (hl : Above Cerrojo.rango g .mutexListaListos)
    (sockfd : ℤ) (b : Bool) : Deja (eliminarSocketListaListos sockfd b) g := by
  apply follows_acquire hl
  apply follows_other
  intro sizeList hsize
  rw [if_neg hsize]
  apply (deja_eliminarDesde sockfd (deja_despedirDibujo b) _).follows
  exact fun _ => follows_release_last hl

theorem deja_eliminarSocketListaBloqueados (hb : Above Cerrojo.rango g .mutexListaBloqueados)
    (sockfd : ℤ) : Deja (eliminarSocketListaBloqueados sockfd) g := by
  apply (Balanced.other _).bind
  intro sizeList
  apply follows_acquire hb
  apply (deja_eliminarDesde sockfd (fun _ => Balanced.pure _) _).follows
  exact fun _ => follows_release_last hb

structure Sueltos (g : Cerrojo → Bool) : Prop where
  listos : Above Cerrojo.rango g .mutexListaListos
  bloqueados : Above Cerrojo.rango g .mutexListaBloqueados
  pokenest : Above Cerrojo.rango g .mutexListaPokenest

variable (h : Sueltos g)
include h

theorem deja_liberarRecursos : Deja liberarRecursos g :=
  (Balanced.other _).bind fun _ => deja_repetir (deja_getPokenestById h.pokenest) _

theorem deja_liberarRecursosListos (sockfd : ℤ) : Deja (liberarRecursosListos sockfd) g := by
  apply (deja_getPcbBySockFdListos h.listos sockfd).bind
  exact fun _ => deja_conPuntero fun _ => deja_liberarRecursos h

theorem deja_obtenerPokenest (sockfd : ℤ) : Deja (obtenerPokenest sockfd) g := by
  apply (deja_getPcbBySockFdListos h.listos sockfd).bind
  intro entrenadorActual
  apply (Balanced.other _).bind
  intro recibido
  split
  · exact Balanced.pure _
  · apply (deja_getPokenestById h.pokenest).bind
    exact fun _ => deja_conPuntero fun _ => Balanced.pure _

theorem deja_moverPosicion (sockfd : ℤ) : Deja (moverPosicion sockfd) g := by
  apply (Balanced.other _).bind
  intro recibido
  split
  · exact Balanced.pure _
  · apply (deja_getPcbBySockFdListos h.listos sockfd).bind
    intro currentPcb
    apply deja_conPuntero
    intro p
    apply (Balanced.other _).bind
    intro _
    exact deja_pedirDibujo.bind fun _ => Balanced.pure _

/-- The lock of `listaListos` is taken inside that of `listaBloqueados`. -/
theorem deja_bloquear (sockfd : ℤ) : Deja (bloquear sockfd) g := by
  apply follows_acquire h.bloqueados
  have hl : Above Cerrojo.rango (Function.update g .mutexListaBloqueados true)
      .mutexListaListos := by
    intro k hk
    by_cases hkb : k = .mutexListaBloqueados
    · subst hkb
      exact Nat.one_pos
    · rw [Function.update_of_ne hkb] at hk
      exact h.listos k hk
  apply (deja_getPcbBySockFdListos hl sockfd).follows
  intro currentPcb
  apply Balanced.follows
  · apply deja_conPuntero
    intro p
    exact (Balanced.other _).bind fun _ => deja_pedirDibujo
  · exact fun _ => follows_release h.bloqueados (Balanced.pure _)

theorem deja_capturarPokemon (sockfd : ℤ) : Deja (capturarPokemon sockfd) g := by
  apply (deja_getPcbBySockFdListos h.listos sockfd).bind
  intro pcbActual
  apply (Balanced.other _).bind
  intro recibido
  split
  · exact Balanced.pure _
  · apply (deja_getPokenestById h.pokenest).bind
    intro _
    apply (Balanced.other _).bind
    intro pokenest
    split
    · exact Balanced.pure _
    split
    · apply (Balanced.other _).bind
      intro acuse
      split <;> exact Balanced.pure _
    · exact deja_bloquear h sockfd

theorem deja_mensaje (sockfd : ℤ) : Deja (mensajeDeEntrenadorRecibido sockfd) g := by
  apply (Balanced.other _).bind
  intro tipoMensaje
  split
  · exact deja_obtenerPokenest h sockfd
  split
  · exact deja_moverPosicion h sockfd
  split
  · exact deja_capturarPokemon h sockfd
  · apply (deja_liberarRecursosListos h sockfd).bind
    intro _
    apply (deja_eliminarSocketListaListos h.listos sockfd false).bind
    exact fun _ => Balanced.pure _

theorem deja_turno (p remain : ℕ) (result : ℕ) : Deja (turno p result remain) g := by
  induction remain generalizing result with
  | zero => exact Balanced.pure _
  | succ remain ih =>
    apply (Balanced.other _).bind
    intro sockfd
    apply (deja_mensaje h sockfd).bind
    intro result
    split
    · exact Balanced.pure _
    · exact ih result

theorem deja_finDeTurno (p result : ℕ) : Deja (finDeTurno p result) g := by
  unfold finDeTurno
  split
  · apply (Balanced.other _).bind
    exact fun sockfd => deja_eliminarSocketListaListos h.listos sockfd true
  split
  · apply follows_acquire h.listos
    apply (Balanced.other _).follows
    intro _
    apply (Balanced.other _).follows
    exact fun _ => follows_release_last h.listos
  · exact Balanced.pure _

theorem deja_roundRobinAlgorithm : Deja roundRobinAlgorithm g := by
  apply follows_acquire h.listos
  apply (Balanced.other _).follows
  intro primero
  apply Balanced.follows (deja_conPuntero fun _ => Balanced.pure _)
  intro p
  apply follows_release h.listos
  apply (Balanced.other _).bind
  intro quantum
  apply (Balanced.other _).bind
  intro result
  apply (deja_turno h p quantum result).bind
  exact fun result => deja_finDeTurno h p result

theorem deja_srdfAlgorithm : Deja srdfAlgorithm g := by
  apply (Balanced.other _).bind
  intro indexMenor
  apply (Balanced.other _).bind
  intro elegido
  apply deja_conPuntero
  intro p
  apply (Balanced.other _).bind
  intro sockfd
  apply (deja_mensaje h sockfd).bind
  intro result
  split
  · exact (deja_mensaje h sockfd).bind fun _ => Balanced.pure _
  · exact Balanced.pure _

theorem deja_planificate : Deja planificate g := by
  apply follows_acquire h.listos
  apply (Balanced.other _).follows
  intro size
  apply follows_release h.listos
  split
  · apply (Balanced.other _).bind
    intro algoritmo
    split
    · exact deja_roundRobinAlgorithm h
    split
    · exact deja_srdfAlgorithm h
    · exact Balanced.pure _
  · exact Balanced.pure _

theorem deja_nuevoEntrenadorConectado : Deja nuevoEntrenadorConectado g := by
  apply (Balanced.other _).bind
  intro sockfd
  apply (deja_getPokenestById h.pokenest).bind
  intro _
  apply (Balanced.other _).bind
  intro p
  apply follows_acquire h.listos
  apply (Balanced.other _).follows
  intro _
  exact follows_release h.listos deja_pedirDibujo

/-! ## The detection -/

omit h in
theorem deja_copiarDesde (is : List ℕ) : Deja (copiarDesde is) g := by
  induction is with
  | nil => exact Balanced.pure _
  | cons i is ih =>
    apply (Balanced.other _).bind
    intro pcb
    apply deja_conPuntero
    intro p
    apply (Balanced.other _).bind
    intro _
    exact ih.bind fun _ => Balanced.pure _

omit h in
theorem deja_marcarEntrenadores (ps : List ℕ) : Deja (marcarEntrenadores ps) g := by
  induction ps with
  | nil => exact Balanced.pure _
  | cons p ps ih =>
    apply (Balanced.other _).bind
    intro recurso
    apply ih.bind
    intro listas
    dsimp only
    split <;> exact Balanced.pure _

theorem deja_liberarNoMarcados (ps : List ℕ) : Deja (liberarNoMarcados ps) g := by
  induction ps with
  | nil => exact Balanced.pure _
  | cons p ps ih =>
    apply follows_acquire h.listos
    apply (Balanced.other _).follows
    exact fun _ => follows_release h.listos ih

theorem deja_morir (perdedor : ℕ) : Deja (morir perdedor) g := by
  apply (deja_liberarRecursos h).bind
  intro _
  apply (Balanced.other _).bind
  exact fun sockfd => deja_eliminarSocketListaBloqueados h.bloqueados sockfd

theorem deja_batallas (primero : ℕ) (marcados : List ℕ) : Deja (batallas primero marcados) g := by
  induction marcados generalizing primero with
  | nil => exact Balanced.pure _
  | cons segundo resto ih =>
    apply (Balanced.other _).bind
    intro empates
    apply Balanced.bind
    · exact deja_repetir ((Balanced.other _).bind fun _ => Balanced.pure _) _
    intro _
    apply (Balanced.other _).bind
    intro perdedor
    split
    · dsimp only
      split
      · exact (deja_morir h primero).bind fun _ => ih _
      · exact ih _
    · dsimp only
      split
      · exact (deja_morir h segundo).bind fun _ => ih _
      · exact ih _

theorem deja_batallar (marcados : List ℕ) : Deja (batallar marcados) g := by
  cases marcados with
  | nil => exact Balanced.pure _
  | cons primero resto => exact deja_batallas h primero resto

omit h in
theorem deja_liberarDesde (is : List ℕ) : Deja (liberarDesde is) g := by
  induction is with
  | nil => exact Balanced.pure _
  | cons i is ih =>
    apply (Balanced.other _).bind
    intro pcb
    apply (Balanced.other _).bind
    intro recursos
    cases pcb with
    | some p =>
      apply Balanced.bind
      · apply deja_repetir
        apply (Balanced.other _).bind
        intro _
        exact deja_pedirDibujo.bind fun _ => Balanced.other _
      · exact fun _ => ih
    | none =>
      dsimp only
      split
      · exact ih
      · exact Balanced.stop

theorem deja_copiarEntrenadores : Deja copiarEntrenadores g := by
  apply follows_acquire h.bloqueados
  apply (Balanced.other _).follows
  intro size
  apply (deja_copiarDesde _).follows
  exact fun _ => follows_release h.bloqueados (Balanced.pure _)

theorem deja_pelear : Deja pelear g := by
  apply (deja_copiarEntrenadores h).bind
  intro entrenadores
  apply Balanced.bind
  · apply follows_acquire h.pokenest
    exact follows_release_last h.pokenest
  intro _
  apply (deja_marcarEntrenadores entrenadores).bind
  intro listas
  exact (deja_liberarNoMarcados h listas.2).bind fun _ => deja_batallar h listas.1

theorem deja_detectarDeadLock : Deja detectarDeadLock g := by
  have hfin : Deja liberarBloqueados g := by
    apply (Balanced.other _).bind
    exact fun _ => deja_liberarDesde _
  apply follows_acquire h.bloqueados
  apply (Balanced.other _).follows
  intro cant
  apply follows_release h.bloqueados
  apply (Balanced.other _).bind
  intro batalla
  dsimp only
  split
  · exact Balanced.bind (f := fun _ => liberarBloqueados) (deja_pelear h) fun _ => hfin
  · exact hfin

end Deja

/-! ## Whole runs -/

theorem sueltos : Sueltos fun _ => false :=
  ⟨fun _ h => absurd h Bool.false_ne_true, fun _ h => absurd h Bool.false_ne_true,
    fun _ h => absurd h Bool.false_ne_true⟩

theorem deja_vuelta (hilo : Hilo) : Deja (vuelta hilo) fun _ => false := by
  cases hilo with
  | conexiones => exact deja_nuevoEntrenadorConectado sueltos
  | planificador => exact deja_planificate sueltos
  | interbloqueo => exact deja_detectarDeadLock sueltos

theorem consistente_inicio (m : Memoria) :
    Consistent Cerrojo.rango Encuentra (inicio m) fun _ _ => false := by
  constructor
  · intro hilo k
    simp [inicio]
  · intro hilo
    rfl

theorem rango_le (k : Cerrojo) : k.rango ≤ 2 := by cases k <;> decide

/-! ### The drawing thread -/

theorem dibujarGUI_isSome {m : Memoria} (h : m.pintor ≠ .espera ∨ 0 < m.semGui) :
    ∃ m', dibujarGUI m = some m' := by
  unfold dibujarGUI
  split
  · next hp =>
    have hgui : 0 < m.semGui := h.resolve_left (not_not.mpr hp)
    exact ⟨_, if_pos hgui⟩
  · split <;> exact ⟨_, rfl⟩
  · exact ⟨_, rfl⟩
  · split <;> exact ⟨_, rfl⟩
  · exact ⟨_, rfl⟩

/-- The rounds that are left to the pass. -/
def Memoria.rondas (m : Memoria) : ℕ :=
  match m.pintor with
  | .espera => 0
  | .listos i _ _ => (m.listaListos.length - i) + m.listaBloqueados.length + 2
  | .bloqueados i _ _ => (m.listaBloqueados.length - i) + 1

theorem wellFounded_dibujarGUI : WellFounded fun m' m => dibujarGUI m = some m' := by
  let medida := fun m : Memoria =>
    m.semGui * (m.listaListos.length + m.listaBloqueados.length + 3) + m.rondas
  refine Subrelation.wf (fun {m' m} h => ?_) (measure medida).wf
  change medida m' < medida m
  unfold dibujarGUI at h
  split at h
  · next hp =>
    split at h
    · next hgui =>
      cases h
      obtain ⟨n, hn⟩ : ∃ n, m.semGui = n + 1 := ⟨m.semGui - 1, by omega⟩
      simp only [medida, Memoria.rondas, hp, hn, Nat.add_sub_cancel, Nat.succ_mul]
      omega
    · cases h
  · next i entrenador hubo hp =>
    split at h <;> (cases h; simp only [medida, Memoria.rondas, hp]; omega)
  · next i hubo hp =>
    cases h
    simp only [medida, Memoria.rondas, hp]
    omega
  · next i entrenador hubo hp =>
    split at h <;> (cases h; simp only [medida, Memoria.rondas, hp]; omega)
  · next i hubo hp =>
    cases h
    simp only [medida, Memoria.rondas, hp]
    omega

/-! ### The planner -/

section Planificador
variable {c : Config Hilo Cerrojo Orden Orden.Respuesta Memoria} {vanas : ℕ}

/-- The only command that a thread can wait at. -/
theorem espera_dibujo (hlista : servicio.Ready c) {hilo : Hilo} (h : Waits sistema c hilo) :
    (∃ next, c.thread hilo = .call (.other (.semWait .semEntrenadorYaSeDibujo)) next) ∧
      c.memory.semEntrenadorYaSeDibujo = 0 := by
  obtain ⟨o, next, ht, hno⟩ := h
  have hpide := hlista hilo
  rw [ht] at hpide
  have husada : dibujos.used o := hpide.2.1
  have hno' : ∀ r m, o.ejecutar 0 c.memory ≠ some (r, m) := fun r m hr => hno r m ⟨0, hr⟩
  cases o with
  | semWait s =>
    cases s with
    | semGui => cases husada
    | semEntrenadorYaSeDibujo =>
      refine ⟨⟨next, ht⟩, Nat.eq_zero_of_not_pos fun hpos => hno' ⟨⟩ _ (if_pos hpos)⟩
  | semPost s => cases s <;> exact absurd rfl (hno' ⟨⟩ _)
  | _ => exact absurd rfl (hno' _ _)

/-- The thread has used a pointer that is not there. -/
def Caido : Programa PUnit → Prop
  | .stop => True
  | _ => False

/-- The thread is at the comparison of `eliminarSocketListaListos`. -/
def PorEliminar : Programa PUnit → Prop
  | .call (.other .listSizeAlEliminar) _ => True
  | _ => False

/-- The run is at what can stop the planner: a thread has used a pointer that is not there, a second
pass has been in vain, or `eliminarSocketListaListos` finds the list empty. -/
def Quiebra (s : Config Hilo Cerrojo Orden Orden.Respuesta Memoria × ℕ) : Prop :=
  (∃ hilo, Caido (s.1.thread hilo)) ∨ 1 < s.2 ∨
    s.1.memory.listaListos = [] ∧ ∃ hilo, PorEliminar (s.1.thread hilo)

instance : DecidablePred Caido := fun x => by
  unfold Caido
  split <;> infer_instance

instance : DecidablePred PorEliminar := fun x => by
  unfold PorEliminar
  split <;> infer_instance

instance : DecidablePred Quiebra := fun s => by
  unfold Quiebra
  infer_instance

/-- Every thread has returned with no lock, and the planner takes `mutexListaListos`. -/
def Vuelven (s : Config Hilo Cerrojo Orden Orden.Respuesta Memoria × ℕ) : Prop :=
  (∀ hilo, s.1.thread hilo = .ret ⟨⟩) ∧ (∀ k, s.1.owner k = none) ∧
    ∃ c₁ c₂, Step sistema s.1 (.again .planificador) c₁ ∧
      Step sistema c₁ (.command .planificador (.acquire .mutexListaListos) ⟨⟩) c₂

/-- What is kept while the run is not there. -/
def EnOrden (m : Memoria) (s : Config Hilo Cerrojo Orden Orden.Respuesta Memoria × ℕ) : Prop :=
  (∃ g, Consistent Cerrojo.rango Encuentra s.1 g) ∧
    ∃ es, Run servicio.Accounted (inicio m, 0) es s

theorem enOrden_inicio (m : Memoria) : EnOrden m (inicio m, 0) :=
  ⟨⟨_, consistente_inicio m⟩, [], .nil _⟩

/-- A list that is not empty is found so. -/
theorem ok_of_not_quiebra {s : Config Hilo Cerrojo Orden Orden.Respuesta Memoria × ℕ}
    {c' : Config Hilo Cerrojo Orden Orden.Respuesta Memoria}
    {e : Event Hilo Cerrojo Orden Orden.Respuesta} (hq : ¬ Quiebra s)
    (hstep : Step sistema s.1 e c') : e.Ok Encuentra := by
  cases hstep with
  | @other hilo o next r m' ht hexec =>
    obtain ⟨n, hexec⟩ := hexec
    cases o with
    | listSizeAlEliminar =>
      cases hexec
      have hen : PorEliminar (s.1.thread hilo) := by
        rw [ht]
        trivial
      have hvacia : s.1.memory.listaListos ≠ [] :=
        fun hvacia => hq (.inr (.inr ⟨hvacia, hilo, hen⟩))
      exact fun hcero => hvacia (List.length_eq_zero_iff.mp hcero)
    | _ => trivial
  | _ => trivial

theorem EnOrden.step {m : Memoria} {s s' : Config Hilo Cerrojo Orden Orden.Respuesta Memoria × ℕ}
    {e : Event Hilo Cerrojo Orden Orden.Respuesta} (h : EnOrden m s) (hq : ¬ Quiebra s)
    (hstep : servicio.Accounted s e s') : EnOrden m s' := by
  obtain ⟨⟨g, hg⟩, es, hrun⟩ := h
  exact ⟨hg.step deja_vuelta hstep.1 (ok_of_not_quiebra hq hstep.1), es ++ [e],
    hrun.append (.cons hstep (.nil _))⟩

/-- While a thread is in its round, one can go on, or the drawing thread can. -/
theorem EnOrden.sigue {m : Memoria} (hm : m.Arranca)
    {s : Config Hilo Cerrojo Orden Orden.Respuesta Memoria × ℕ} (h : EnOrden m s)
    (hq : ¬ Quiebra s) {hilo : Hilo} (hi : s.1.thread hilo ≠ .ret ⟨⟩) :
    ∃ e c', Step sistema s.1 e c' ∧ e.GoesOn := by
  obtain ⟨⟨g, hg⟩, es, hrun⟩ := h
  obtain ⟨hlista, hfichas, -⟩ := cuenta_dibujos hm hrun
  rcases hg.goes_on (L := sistema) rango_le hi with hsigue | ⟨j, hstop | hespera⟩
  · exact hsigue
  · have hcaido : Caido (s.1.thread j) := by
      rw [hstop]
      trivial
    exact absurd (.inl ⟨j, hcaido⟩) hq
  -- somebody waits for the drawing thread, that has something to do
  · obtain ⟨hen, hya⟩ := espera_dibujo hlista hespera
    have hvanas : s.2 ≤ 1 := Nat.le_of_not_lt fun hlt => hq (.inr (.inl hlt))
    have hpinta : s.1.memory.pintor ≠ .espera ∨ 0 < s.1.memory.semGui := by
      by_contra hno
      obtain ⟨hp, hgui⟩ := not_or.mp hno
      exact no_trabado hfichas hvanas ⟨⟨j, hen⟩, hya, by omega, not_not.mp hp⟩
    obtain ⟨m', hm'⟩ := dibujarGUI_isSome hpinta
    exact ⟨_, _, .environment hm', trivial⟩

theorem EnOrden.vuelven {m : Memoria} {s : Config Hilo Cerrojo Orden Orden.Respuesta Memoria × ℕ}
    (h : EnOrden m s) (hret : ∀ hilo, s.1.thread hilo = .ret ⟨⟩) : Vuelven s := by
  obtain ⟨⟨g, hg⟩, -⟩ := h
  have hlibre : ∀ k, s.1.owner k = none := by
    intro k
    rw [Option.eq_none_iff_forall_ne_some]
    exact fun hilo => hg.free_of_ret (hret hilo) k
  obtain ⟨next, hnext⟩ : ∃ next, vuelta .planificador =
      .call (.acquire .mutexListaListos) next := ⟨_, rfl⟩
  have hthread : Function.update s.1.thread .planificador (vuelta .planificador) .planificador =
      .call (.acquire .mutexListaListos) next := (Function.update_self ..).trans hnext
  exact ⟨hret, hlibre, _, _, .again (hret .planificador), .acquire hthread (hlibre _)⟩

end Planificador

/-- The next step of a schedule, while nothing can stop the planner. -/
def programado (s : Config Hilo Cerrojo Orden Orden.Respuesta Memoria × ℕ)
    (a : Option (Hilo × ℕ)) : Option (Config Hilo Cerrojo Orden Orden.Respuesta Memoria × ℕ) :=
  if Quiebra s then none
  else (schedule Orden.ejecutar vuelta dibujarGUI s.1 a).map fun (e, c) =>
    (c, s.2 + servicio.lostBy s.1 e)

theorem run_of_programado {as : List (Option (Hilo × ℕ))}
    {s s' : Config Hilo Cerrojo Orden Orden.Respuesta Memoria × ℕ}
    (h : as.foldlM programado s = some s') :
    ∃ es, Run (fun s e s' => servicio.Accounted s e s' ∧ ¬ Quiebra s) s es s' := by
  induction as generalizing s with
  | nil =>
    cases h
    exact ⟨[], .nil _⟩
  | cons a as ih =>
    rw [List.foldlM_cons] at h
    obtain ⟨s₁, h₁, hrest⟩ := Option.bind_eq_some_iff.mp h
    unfold programado at h₁
    split at h₁
    · cases h₁
    · next hq =>
      obtain ⟨⟨e, c⟩, he, heq⟩ := Option.map_eq_some_iff.mp h₁
      obtain ⟨es, hes⟩ := ih hrest
      cases heq
      exact ⟨e :: es, .cons ⟨⟨step_of_schedule he, rfl⟩, hq⟩ hes⟩

/-- A trainer connects and is drawn; the planner, under RR with quantum one, gets its
`TERMINE_OBJETIVOS`, asks for the drawing of its leave, and takes it out once more. -/
def ultimoEntrenador : List (Option (Hilo × ℕ)) :=
  pasos .conexiones 9 ++ dibuja 4 ++ pasos .conexiones 1 ++
  pasos .planificador 4 ++ [some (.planificador, 1)] ++ pasos .planificador 3 ++
  [some (.planificador, 1)] ++ pasos .planificador 15 ++ dibuja 4 ++ pasos .planificador 7

theorem ultimoEntrenador_termina :
    ∃ es c next, scheduleAll Orden.ejecutar vuelta dibujarGUI (inicio memoriaInicial)
        ultimoEntrenador = some (es, c) ∧
      c.thread .planificador = .call (.acquire .mutexListaListos) next ∧
      c.owner .mutexListaListos = some .planificador ∧ c.memory.listaListos = [] :=
  ⟨_, _, _, rfl, rfl, rfl, rfl⟩

end TpSo.Mapa.Hilado
