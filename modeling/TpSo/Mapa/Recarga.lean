import TpSo.Mapa.Archivos
import TpSo.Mapa.Batalla
import TpSo.Mapa.Conserva
import TpSo.Mapa.Planificador

/-!
# Reloads of the configuration

`cargarPokenest` is used for the first load and for the reloads, and it only adds. No other step
changes which pokenests are in the list, so after `n` reloads each directory is in it `n + 1` times.
-/

namespace TpSo.Mapa

/-! ## Looking up with identifiers that do not repeat -/

theorem find?_of_nodup {α κ : Type} [DecidableEq κ] {key : α → κ} {l : List α} {x : α}
    (hnd : (l.map key).Nodup) (hx : x ∈ l) : l.find? (fun y => key y = key x) = some x := by
  induction l with
  | nil => cases hx
  | cons y l ih =>
    rw [List.map_cons, List.nodup_cons] at hnd
    cases List.mem_cons.mp hx with
    | inl he =>
      subst he
      rw [List.find?_cons_of_pos (by simp)]
    | inr hx =>
      have hne : key y ≠ key x := fun he => hnd.1 (he ▸ List.mem_map_of_mem hx)
      rw [List.find?_cons_of_neg (by simpa using hne)]
      exact ih hnd.2 hx

/-- All the ways of looking a pokenest up see the same units. -/
structure Acuerdo (a : Almacen) (p : Pokenest) : Prop where
  getPokenestById : a.getPokenestById p.identificador = some p
  listFind : a.listaPokenest.find? (fun q => q.identificador = p.identificador) = some p
  disponible : elRecursoNoEstaDisponible a.listaPokenest p.identificador = 0 ↔ 1 ≤ p.cant
  desbloquea : (∃ q ∈ a.listaPokenest, p.identificador = q.identificador ∧ 1 ≤ q.cant) ↔ 1 ≤ p.cant

theorem acuerdo_of_nodup {a : Almacen} (hnd : (a.listaPokenest.map Pokenest.identificador).Nodup)
    {p : Pokenest} (hp : p ∈ a.listaPokenest) : Acuerdo a p := by
  have hfind := find?_of_nodup hnd hp
  have hunico : ∀ q ∈ a.listaPokenest, q.identificador = p.identificador → q = p := by
    intro q hq he
    have hq' := find?_of_nodup hnd hq
    rw [he, hfind] at hq'
    exact (Option.some.inj hq').symm
  have hdes : (∃ q ∈ a.listaPokenest, p.identificador = q.identificador ∧ 1 ≤ q.cant) ↔
      1 ≤ p.cant := by
    constructor
    · intro ⟨q, hq, he, hc⟩
      rwa [hunico q hq he.symm] at hc
    · exact fun hc => ⟨p, hp, rfl, hc⟩
  refine ⟨?_, hfind, ?_, hdes⟩
  · rw [Almacen.getPokenestById, hfind, Option.some_or]
  · rw [← hdes, elRecursoNoEstaDisponible]
    constructor
    · intro h
      split at h
      · next hany =>
        obtain ⟨q, hq, he⟩ := List.any_eq_true.mp hany
        have he := of_decide_eq_true he
        exact ⟨q, hq, he.1.symm, he.2⟩
      · cases h
    · intro ⟨q, hq, he, hc⟩
      exact if_pos (List.any_eq_true.mpr ⟨q, hq, decide_eq_true ⟨he.symm, hc⟩⟩)

/-! ## What stays -/

/-- The same pokenests and the same directories, with any units. -/
def MismasFichas (a a' : Almacen) : Prop := a'.fichas = a.fichas ∧ a'.directorios = a.directorios

namespace MismasFichas

theorem refl (a : Almacen) : MismasFichas a a := ⟨rfl, rfl⟩

theorem trans {a a' a'' : Almacen} (h : MismasFichas a a') (h' : MismasFichas a' a'') :
    MismasFichas a a'' := ⟨h'.1.trans h.1, h'.2.trans h.2⟩

theorem conCant (a : Almacen) (id : UInt8) (k : ℤ) : MismasFichas a (a.conCant id k) :=
  ⟨Almacen.fichas_conCant a id k, rfl⟩

theorem reintegrarRecurso (path : Nombre) (id : UInt8) :
    Op.Keeps MismasFichas (reintegrarRecurso path id) := by
  intro a
  unfold Mapa.reintegrarRecurso
  split
  · next p _ =>
    dsimp only
    split
    · exact conCant (a.devolverArchivos path p.species) id 1
    · exact ⟨rfl, rfl⟩
  · exact refl a

theorem reintegrarRecursos (path : Nombre) (ids : List UInt8) :
    Op.Keeps MismasFichas (reintegrarRecursos path ids) := by
  induction ids with
  | nil => exact Op.Keeps.pure refl _
  | cons id ids ih =>
    apply Op.Keeps.bind (fun _ _ _ h h' => h.trans h') (reintegrarRecurso path id)
    exact fun _ => ih

end MismasFichas

/-- The relation on the states of the process. -/
def MismosNidos (m m' : Estado) : Prop := MismasFichas m.toAlmacen m'.toAlmacen

theorem mismosNidos_conserva : Conserva MismosNidos where
  refl m := MismasFichas.refl m.toAlmacen
  trans _ _ _ h h' := MismasFichas.trans h h'
  enviar m _ _ _ := MismasFichas.refl m.toAlmacen
  bloqueados m _ := MismasFichas.refl m.toAlmacen
  liberar p := by
    apply Op.Keeps.bind (R := MismosNidos) fun _ _ _ h h' => MismasFichas.trans h h'
    · exact fun m => MismasFichas.refl m.toAlmacen
    · intro m
      refine Op.Keeps.zoom (R := MismosNidos) (MismasFichas.reintegrarRecursos _ _) ?_
      exact fun _ _ h => h

theorem mismosNidos_entregarPokemon (sockfd : ℤ) (p : ℕ) (id : UInt8) (pokenest : Pokenest)
    (r : Recibido) : Op.Keeps MismosNidos (entregarPokemon sockfd p id pokenest r) := by
  intro m
  have hcopia : ∀ path archivo, MismasFichas m.toAlmacen
      ((m.toAlmacen.conCant id (-1)).copiarADirDeBill path pokenest.species archivo) := by
    intro path archivo
    apply (MismasFichas.conCant m.toAlmacen id (-1)).trans
    unfold Almacen.copiarADirDeBill
    split <;> exact ⟨rfl, rfl⟩
  unfold entregarPokemon
  dsimp only
  split
  · split
    · exact (hcopia _ _).trans ⟨rfl, rfl⟩
    · exact (MismasFichas.conCant m.toAlmacen id (-1)).trans ⟨rfl, rfl⟩
  · split
    · exact hcopia _ _
    · exact MismasFichas.conCant m.toAlmacen id (-1)

theorem mismosNidos_despedir (sockfd : ℤ) : Op.Keeps MismosNidos (despedir sockfd) := by
  apply Op.Keeps.bind mismosNidos_conserva.trans
  · exact mismosNidos_conserva.liberarRecursosListos sockfd
  · exact fun _ m => MismasFichas.refl m.toAlmacen

theorem mismosNidos_mensaje (sockfd : ℤ) (r : Recibido) :
    Op.Keeps MismosNidos (mensajeDeEntrenadorRecibido sockfd r) := by
  have hrefl : ∀ m : Estado, MismosNidos m m := mismosNidos_conserva.refl
  unfold mensajeDeEntrenadorRecibido
  split
  · intro m
    unfold obtenerPokenest
    split
    · exact hrefl m
    · split <;> exact hrefl m
  split
  · intro m
    unfold moverPosicion
    split
    · exact hrefl m
    · split <;> exact hrefl m
  split
  · intro m
    unfold capturarPokemon
    split
    · exact hrefl m
    · split
      · split
        · exact hrefl m
        · split
          · exact mismosNidos_entregarPokemon _ _ _ _ _ m
          · exact hrefl m
      · exact hrefl m
  split
  · apply Op.Keeps.bind mismosNidos_conserva.trans
    · exact fun m => hrefl m
    · exact fun _ => mismosNidos_despedir sockfd
  · exact mismosNidos_despedir sockfd

theorem mismosNidos_detectarDeadLock (f : Fabrica) (peleas : Peleas) :
    Op.Keeps MismosNidos (detectarDeadLock f peleas) := by
  apply mismosNidos_conserva.detectarDeadLock
  · intro m
    unfold copiarEntrenadores
    split <;> exact MismasFichas.refl m.toAlmacen
  · exact fun l m => MismasFichas.refl m.toAlmacen

/-! ## Whole runs -/

def Evento.esRecarga : Evento → Bool
  | .recarga => true
  | _ => false

theorem mismosNidos_atender {s s' : Proceso} {r : Recibido} (h : atender s r = some s') :
    MismosNidos s.mapa s'.mapa := by
  unfold atender at h
  split at h
  · obtain ⟨⟨result, m⟩, ho, rfl⟩ := Option.map_eq_some_iff.mp h
    exact (mismosNidos_mensaje _ _).outcome ho
  · obtain ⟨⟨result, m⟩, ho, rfl⟩ := Option.map_eq_some_iff.mp h
    exact (mismosNidos_mensaje _ _).outcome ho
  · obtain ⟨⟨result, m⟩, ho, rfl⟩ := Option.map_eq_some_iff.mp h
    have hm : MismosNidos s.mapa m := (mismosNidos_mensaje _ _).outcome ho
    exact hm
  · cases h

/-- Only a reload changes which pokenests are in the list. -/
theorem PasoMapa.mismosNidos {alg : Algoritmo} {f : Fabrica} {s s' : Proceso} {e : Evento}
    (h : PasoMapa alg f s e s') (he : e.esRecarga = false) : MismosNidos s.mapa s'.mapa := by
  unfold PasoMapa pasoMapa at h
  cases e with
  | conecta sockfd path id =>
    obtain ⟨⟨_, m⟩, ho, rfl⟩ := Option.map_eq_some_iff.mp h
    refine Op.Keeps.outcome (fun m => ?_) ho
    unfold nuevoEntrenadorConectado
    split <;> exact MismasFichas.refl m.toAlmacen
  | empieza =>
    dsimp only at h
    split at h
    · obtain ⟨_, _, rfl⟩ := Option.map_eq_some_iff.mp h
      exact MismasFichas.refl s.mapa.toAlmacen
    · cases h
  | atiende r => exact mismosNidos_atender h
  | termina =>
    dsimp only at h
    split at h
    · obtain rfl := Option.some.inj h
      unfold finDeTurno
      dsimp only
      split
      · exact MismasFichas.refl s.mapa.toAlmacen
      split <;> exact MismasFichas.refl s.mapa.toAlmacen
    · cases h
  | detecta peleas =>
    obtain ⟨⟨_, m⟩, ho, rfl⟩ := Option.map_eq_some_iff.mp h
    exact (mismosNidos_detectarDeadLock f peleas).outcome ho
  | recarga => cases he

def Directorio.ficha (d : Directorio) : UInt8 × Nombre := (d.identificador, d.species)

theorem fichas_cargarPokenest (a : Almacen) :
    a.cargarPokenest.fichas = a.fichas ++ a.directorios.map Directorio.ficha := by
  unfold Almacen.fichas Almacen.cargarPokenest
  rw [List.map_append, List.map_map]
  rfl

/-- The pokenests as the first load leaves them. -/
def Cargado (a : Almacen) : Prop := ∃ b : Almacen, b.listaPokenest = [] ∧ a = b.cargarPokenest

theorem Cargado.fichas {a : Almacen} (h : Cargado a) :
    a.fichas = a.directorios.map Directorio.ficha := by
  obtain ⟨b, hb, rfl⟩ := h
  rw [fichas_cargarPokenest, Almacen.fichas, hb]
  rfl

/-- After `n` reloads every directory is in the list `n + 1` times. -/
theorem fichas_de_corrida {alg : Algoritmo} {f : Fabrica} {s₀ s : Proceso} {es : List Evento}
    (h₀ : Cargado s₀.mapa.toAlmacen) (hrun : Run (PasoMapa alg f) s₀ es s) :
    s.mapa.directorios = s₀.mapa.directorios ∧
      s.mapa.fichas = (List.replicate (es.countP Evento.esRecarga + 1)
        (s₀.mapa.directorios.map Directorio.ficha)).flatten := by
  apply Run.invariant_history (I := fun s es =>
    s.mapa.directorios = s₀.mapa.directorios ∧
      s.mapa.fichas = (List.replicate (es.countP Evento.esRecarga + 1)
        (s₀.mapa.directorios.map Directorio.ficha)).flatten) _ (by simp [h₀.fichas]) hrun
  intro s e s' es ⟨hdir, hfichas⟩ hstep
  cases he : e.esRecarga with
  | false =>
    have hmis := hstep.mismosNidos he
    rw [List.countP_append, List.countP_singleton, he]
    exact ⟨hmis.2.trans hdir, hmis.1.trans hfichas⟩
  | true =>
    cases e with
    | recarga =>
      obtain rfl := Option.some.inj hstep
      refine ⟨hdir, ?_⟩
      rw [fichas_cargarPokenest, hfichas, hdir, List.countP_append, List.countP_singleton, he,
        if_pos rfl, List.replicate_succ' (n := es.countP Evento.esRecarga + 1), List.flatten_append]
      simp
    | _ => cases he

theorem nodup_flatten_replicate {α : Type} {l : List α} {n : ℕ} :
    (List.replicate (n + 1) l).flatten.Nodup ↔ l.Nodup ∧ (l = [] ∨ n = 0) := by
  cases n with
  | zero => simp
  | succ n =>
    rw [List.replicate_succ, List.replicate_succ, List.flatten_cons, List.flatten_cons]
    constructor
    · intro h
      refine ⟨(List.nodup_append.mp h).1, .inl ?_⟩
      apply List.eq_nil_iff_forall_not_mem.mpr
      intro x hx
      exact List.disjoint_of_nodup_append h hx (List.mem_append_left _ hx)
    · intro ⟨_, h⟩
      obtain rfl : l = [] := h.resolve_right (Nat.succ_ne_zero n)
      simp

/-- The identifiers do not repeat, and all the lookups agree on the pokenests that were loaded at
first, exactly when no two directories have the same identifier and there has been no reload (or
nothing to load). A reload leaves the list as it was only if there is nothing to load. -/
theorem recargas_iguales_iff {alg : Algoritmo} {f : Fabrica} {s₀ s : Proceso} {es : List Evento}
    (h₀ : Cargado s₀.mapa.toAlmacen) (hrun : Run (PasoMapa alg f) s₀ es s) :
    ((s.mapa.listaPokenest.map Pokenest.identificador).Nodup ∧
        (∀ p ∈ s.mapa.listaPokenest, Acuerdo s.mapa.toAlmacen p) ∧
        s.mapa.fichas = s₀.mapa.fichas ↔
      (s₀.mapa.directorios.map Directorio.identificador).Nodup ∧
        (s₀.mapa.directorios = [] ∨ ∀ e ∈ es, e.esRecarga = false)) ∧
    (s.mapa.cargarPokenest.listaPokenest = s.mapa.listaPokenest ↔ s₀.mapa.directorios = []) := by
  obtain ⟨hdir, hfichas⟩ := fichas_de_corrida h₀ hrun
  have hids : s.mapa.listaPokenest.map Pokenest.identificador =
      (List.replicate (es.countP Evento.esRecarga + 1)
        (s₀.mapa.directorios.map Directorio.identificador)).flatten := by
    have hfst := congrArg (List.map Prod.fst) hfichas
    rw [Almacen.fichas, List.map_map, List.map_flatten, List.map_replicate, List.map_map] at hfst
    exact hfst
  have hcero : es.countP Evento.esRecarga = 0 ↔ ∀ e ∈ es, e.esRecarga = false := by
    rw [List.countP_eq_zero]
    simp only [Bool.not_eq_true]
  constructor
  · rw [hids, nodup_flatten_replicate, List.map_eq_nil_iff, hcero]
    constructor
    · exact fun h => h.1
    · intro h
      refine ⟨h, fun p hp => acuerdo_of_nodup ?_ hp, ?_⟩
      · rw [hids, nodup_flatten_replicate, List.map_eq_nil_iff, hcero]
        exact h
      · rw [hfichas, h₀.fichas]
        cases h.2 with
        | inl hnil => simp [hnil]
        | inr hno => simp [hcero.mpr hno]
  · rw [Almacen.cargarPokenest, List.append_right_eq_self, List.map_eq_nil_iff, hdir]

/-! ## One reload -/

def recargaYCaptura : List Evento :=
  [.conecta 5 [97] 77, .recarga, .empieza, .atiende ⟨3, some 77, none, true, true⟩]

theorem recargas_iguales_sin_recarga :
    ∃ s : Proceso, (s.mapa.listaPokenest.map Pokenest.identificador).Nodup ∧
      ∀ p ∈ s.mapa.listaPokenest, Acuerdo s.mapa.toAlmacen p := by
  have hrun : ∃ s, [Evento.conecta 5 [97] 77, .empieza].foldlM (fun s e =>
      if True then pasoMapa .rr fabricaDeNiveles s e else none) ⟨mapaDeDos ekans, .libre⟩ =
        some s := ⟨_, rfl⟩
  obtain ⟨s, hs⟩ := hrun
  have hs : Run (PasoMapa .rr fabricaDeNiveles) _ _ s :=
    (Run.of_foldlM hs).mono fun _ _ _ hstep => hstep.1
  have hiff := (recargas_iguales_iff ⟨almacenDeDos ekans, rfl, rfl⟩ hs).1
  have h := hiff.mpr ⟨by decide, .inr (by simp [Evento.esRecarga])⟩
  exact ⟨s, h.1, h.2.1⟩

theorem no_toda_recarga_igual : ¬ ∀ (alg : Algoritmo) (f : Fabrica) (s₀ s : Proceso)
    (es : List Evento), Cargado s₀.mapa.toAlmacen →
    (s₀.mapa.directorios.map Directorio.identificador).Nodup → Run (PasoMapa alg f) s₀ es s →
    ∀ p ∈ s.mapa.listaPokenest, Acuerdo s.mapa.toAlmacen p := by
  intro h
  have hrun : ∃ s, recargaYCaptura.foldlM (fun s e =>
      if True then pasoMapa .rr fabricaDeNiveles s e else none) ⟨mapaDeDos ekans, .libre⟩ =
        some s ∧ ∃ p ∈ s.mapa.listaPokenest, p.identificador = 77 ∧ p.cant = 0 ∧
          elRecursoNoEstaDisponible s.mapa.listaPokenest 77 = 0 :=
    ⟨_, rfl, _, .head _, rfl, rfl, rfl⟩
  obtain ⟨s, hs, p, hp, hid, hcant, hdis⟩ := hrun
  have hs : Run (PasoMapa .rr fabricaDeNiveles) _ _ s :=
    (Run.of_foldlM hs).mono fun _ _ _ hstep => hstep.1
  have hac := h .rr fabricaDeNiveles _ s _ ⟨almacenDeDos ekans, rfl, rfl⟩ (by decide) hs p hp
  rw [← hid] at hdis
  have hle := hac.disponible.mp hdis
  rw [hcant] at hle
  exact absurd hle (by decide)

end TpSo.Mapa
