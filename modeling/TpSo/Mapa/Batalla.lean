import Mathlib.Data.List.Nodup
import TpSo.Mapa.Deteccion

/-!
# The battles of the marked trainers

The first trainer of the list fights with the second, and the loser goes on against the third: the
battles are a `torneo`, and the loser of the last of them dies. What every trainer is sent is
compared with the automaton of `completarMapa`, for which the number 4 is a challenge in `BLOQUEADO`
and a result in `EN_DEADLOCK`.
-/

namespace TpSo.Mapa

open Entrenador (Aventura Paso Suceso morite ganaste)

/-! ## The tournament -/

/-- The loser and the winner of two, by the result of their battle. -/
def perdedorDe (resultado a b : ℕ) : ℕ := if resultado = 1 then a else b
def ganadorDe (resultado a b : ℕ) : ℕ := if resultado = 1 then b else a

theorem perdedorDe_ganadorDe (resultado a b : ℕ) :
    perdedorDe resultado a b = a ∧ ganadorDe resultado a b = b ∨
      perdedorDe resultado a b = b ∧ ganadorDe resultado a b = a := by
  unfold perdedorDe ganadorDe
  split
  · exact .inl ⟨rfl, rfl⟩
  · exact .inr ⟨rfl, rfl⟩

theorem ganador_perdedor_perm (resultado a b : ℕ) (resto : List ℕ) :
    (ganadorDe resultado a b :: perdedorDe resultado a b :: resto).Perm (a :: b :: resto) := by
  rcases perdedorDe_ganadorDe resultado a b with ⟨hp, hg⟩ | ⟨hp, hg⟩
  · rw [hp, hg]
    exact List.Perm.swap a b resto
  · rw [hp, hg]

theorem mem_of_perdedor {resultado a b q : ℕ} {resto : List ℕ}
    (hq : q ∈ perdedorDe resultado a b :: resto) : q ∈ a :: b :: resto :=
  (ganador_perdedor_perm resultado a b resto).subset (List.mem_cons_of_mem _ hq)

/-- The loser of the last battle; `r k` is the result of the battle `k`. -/
def torneo (r : ℕ → ℕ) : ℕ → ℕ → List ℕ → ℕ
  | _, a, [] => a
  | k, a, b :: resto => torneo r (k + 1) (perdedorDe (r k) a b) resto

def mensajesBatalla (sock : ℕ → ℤ) (ultimos : Bool) (a b perdedor ganador : ℕ) : List (ℤ × Envio) :=
  [(sock a, .estasEnDeadlock), (sock b, .estasEnDeadlock),
    (sock perdedor, .resultado (if ultimos then morite else Entrenador.estasEnDeadlock)),
    (sock ganador, .resultado ganaste)]

def mensajesTorneo (sock : ℕ → ℤ) (r : ℕ → ℕ) : ℕ → ℕ → List ℕ → List (ℤ × Envio)
  | _, _, [] => []
  | k, a, b :: resto =>
    mensajesBatalla sock resto.isEmpty a b (perdedorDe (r k) a b) (ganadorDe (r k) a b) ++
      mensajesTorneo sock r (k + 1) (perdedorDe (r k) a b) resto

theorem torneo_mem (r : ℕ → ℕ) (k a : ℕ) (resto : List ℕ) : torneo r k a resto ∈ a :: resto := by
  induction resto generalizing k a with
  | nil => exact List.mem_singleton.mpr rfl
  | cons b resto ih => exact mem_of_perdedor (ih (k + 1) (perdedorDe (r k) a b))

def enviadosA (s : ℤ) (es : List (ℤ × Envio)) : List Envio :=
  (es.filter fun e => e.1 = s).map Prod.snd

theorem enviadosA_append (s : ℤ) (es es' : List (ℤ × Envio)) :
    enviadosA s (es ++ es') = enviadosA s es ++ enviadosA s es' := by
  simp [enviadosA]

def rondas (resultados : List ℤ) : List Envio :=
  resultados.flatMap fun n => [.estasEnDeadlock, .resultado n]

section Mensajes
variable {sock : ℕ → ℤ} (ultimos : Bool) {a b x y : ℕ}

theorem enviadosA_perdedor (h : x = a ∧ y = b ∨ x = b ∧ y = a) (hne : sock a ≠ sock b) :
    enviadosA (sock x) (mensajesBatalla sock ultimos a b x y) =
      rondas [if ultimos then morite else Entrenador.estasEnDeadlock] := by
  rcases h with ⟨rfl, rfl⟩ | ⟨rfl, rfl⟩
  · simp [enviadosA, mensajesBatalla, rondas, hne.symm]
  · simp [enviadosA, mensajesBatalla, rondas, hne]

theorem enviadosA_ganador (h : x = a ∧ y = b ∨ x = b ∧ y = a) (hne : sock a ≠ sock b) :
    enviadosA (sock y) (mensajesBatalla sock ultimos a b x y) = rondas [ganaste] := by
  rcases h with ⟨rfl, rfl⟩ | ⟨rfl, rfl⟩
  · simp [enviadosA, mensajesBatalla, rondas, hne]
  · simp [enviadosA, mensajesBatalla, rondas, hne.symm]

theorem enviadosA_otro (h : x = a ∧ y = b ∨ x = b ∧ y = a) {s : ℤ} (ha : s ≠ sock a)
    (hb : s ≠ sock b) : enviadosA s (mensajesBatalla sock ultimos a b x y) = [] := by
  rcases h with ⟨rfl, rfl⟩ | ⟨rfl, rfl⟩ <;>
    simp [enviadosA, mensajesBatalla, ha.symm, hb.symm]

end Mensajes

section Torneo
variable {sock : ℕ → ℤ} {r : ℕ → ℕ}

theorem enviadosA_torneo_otro {s : ℤ} {resto : List ℕ} : ∀ {k a : ℕ},
    (∀ p ∈ a :: resto, s ≠ sock p) → enviadosA s (mensajesTorneo sock r k a resto) = [] := by
  induction resto with
  | nil =>
    intro k a _
    rfl
  | cons b resto ih =>
    intro k a hs
    have ha : s ≠ sock a := hs a (by simp)
    have hb : s ≠ sock b := hs b (by simp)
    have hpg := perdedorDe_ganadorDe (r k) a b
    rw [mensajesTorneo, enviadosA_append, enviadosA_otro _ hpg ha hb, List.nil_append]
    exact ih fun p hp => hs p (mem_of_perdedor hp)

/-- Every trainer is sent challenges with their results, one by one: it loses some battles and wins
one, or loses them all. -/
theorem enviadosA_torneo {resto : List ℕ} : ∀ {k a p : ℕ}, resto ≠ [] →
    (∀ p ∈ a :: resto, ∀ q ∈ a :: resto, sock p = sock q → p = q) → (a :: resto).Nodup →
    p ∈ a :: resto →
    ∃ n, enviadosA (sock p) (mensajesTorneo sock r k a resto) =
      rondas (List.replicate n Entrenador.estasEnDeadlock ++
        [if p = torneo r k a resto then morite else ganaste]) := by
  induction resto with
  | nil =>
    intro k a p hne
    exact absurd rfl hne
  | cons b resto ih =>
    intro k a p _ hinj hnd hp
    have hab : a ≠ b := by
      intro he
      simp [he] at hnd
    have hsock : sock a ≠ sock b := fun he => hab (hinj a (by simp) b (by simp) he)
    have hpg := perdedorDe_ganadorDe (r k) a b
    have hperm := ganador_perdedor_perm (r k) a b resto
    have hsub : ∀ q ∈ perdedorDe (r k) a b :: resto, q ∈ a :: b :: resto :=
      fun q hq => mem_of_perdedor hq
    rw [mensajesTorneo, torneo, enviadosA_append]
    generalize perdedorDe (r k) a b = x at hpg hperm hsub ⊢
    generalize ganadorDe (r k) a b = y at hpg hperm ⊢
    obtain ⟨hyx, hnd'⟩ := List.nodup_cons.mp (hperm.nodup_iff.mpr hnd)
    have hinj' : ∀ p ∈ x :: resto, ∀ q ∈ x :: resto, sock p = sock q → p = q :=
      fun p hp q hq => hinj p (hsub p hp) q (hsub q hq)
    by_cases hpy : p = y
    · -- the winner is not sent anything else
      have hmem := torneo_mem r (k + 1) x resto
      have hno : p ≠ torneo r (k + 1) x resto := fun he => hyx (by rw [← hpy, he]; exact hmem)
      refine ⟨0, ?_⟩
      rw [if_neg hno, hpy, enviadosA_ganador _ hpg hsock, enviadosA_torneo_otro]
      · rfl
      · intro q hq he
        exact hyx (hinj y (hpy ▸ hp) q (hsub q hq) he ▸ hq)
    · have hpx : p ∈ x :: resto :=
        (List.mem_cons.mp (hperm.symm.subset hp)).resolve_left hpy
      by_cases hvacio : resto = []
      · subst hvacio
        have hpx' : p = x := List.mem_singleton.mp hpx
        refine ⟨0, ?_⟩
        rw [hpx', enviadosA_perdedor _ hpg hsock, torneo, if_pos rfl]
        rfl
      · obtain ⟨n, hn⟩ := ih hvacio hinj' hnd' hpx
        have hno : resto.isEmpty = false := List.isEmpty_eq_false_iff.mpr hvacio
        rw [hn]
        by_cases hpx' : p = x
        · refine ⟨n + 1, ?_⟩
          have hx' := enviadosA_perdedor resto.isEmpty hpg hsock
          rw [hpx', hx', hno]
          rfl
        · refine ⟨n, ?_⟩
          have hotro : ∀ q, q = x ∨ q = y → q ∈ a :: b :: resto → sock p ≠ sock q := by
            intro q hq hmem he
            obtain rfl := hinj p hp q hmem he
            exact hq.elim hpx' hpy
          have hpa : sock p ≠ sock a := hotro a (by omega) (by simp)
          have hpb : sock p ≠ sock b := hotro b (by omega) (by simp)
          rw [enviadosA_otro _ hpg hpa hpb]
          rfl

end Torneo

/-! ## The trainer's side -/

/-- The trainer is in the state that reads each message when it comes to it: a challenge in
`BLOQUEADO`, a result in `EN_DEADLOCK`. -/
def SiempreLee (objetivos : List UInt8) : Aventura → List Envio → Prop
  | _, [] => True
  | a, .estasEnDeadlock :: es => a.estado = .bloqueado ∧ ∀ sucesos a',
      Paso objetivos a (.aviso Entrenador.estasEnDeadlock, sucesos) a' → SiempreLee objetivos a' es
  | a, .resultado n :: es => a.estado = .enDeadlock ∧ ∀ socket sucesos a',
      Paso objetivos a (.resultado n socket, sucesos) a' → SiempreLee objetivos a' es
  | _, _ :: _ => False

theorem siempreLee_ronda {objetivos : List UInt8} {a : Aventura} {n : ℤ} {es : List Envio}
    (h : a.estado = .bloqueado)
    (hes : ∀ b socket sucesos b', b.estado = .enDeadlock →
      Paso objetivos b (.resultado n socket, sucesos) b' → SiempreLee objetivos b' es) :
    SiempreLee objetivos a (.estasEnDeadlock :: .resultado n :: es) := by
  refine ⟨h, ?_⟩
  intro sucesos a' hpaso
  have hest : a'.estado = .enDeadlock := by
    simp only [Paso, Entrenador.paso, h, if_true, Option.some.injEq, Prod.mk.injEq] at hpaso
    rw [← hpaso.1]
  exact ⟨hest, fun socket sucesos' b' hb => hes a' socket sucesos' b' hest hb⟩

/-- After `ESTAS_EN_DEADLOCK` as a result the trainer waits for the next challenge. -/
theorem estado_tras_perder {objetivos : List UInt8} {a a' : Aventura} {socket : ℤ}
    {sucesos : List Suceso} (h : a.estado = .enDeadlock)
    (hpaso : Paso objetivos a (.resultado Entrenador.estasEnDeadlock socket, sucesos) a') :
    a'.estado = .bloqueado := by
  have hno : ¬ Entrenador.estasEnDeadlock = morite := by decide
  simp only [Paso, Entrenador.paso, h, if_true, hno, if_false, true_or, or_true, Option.some.injEq,
    Prod.mk.injEq] at hpaso
  rw [← hpaso.1]

theorem siempreLee_rondas {objetivos : List UInt8} (n : ℕ) (ultimo : ℤ) : ∀ {a : Aventura},
    a.estado = .bloqueado → SiempreLee objetivos a
      (rondas (List.replicate n Entrenador.estasEnDeadlock ++ [ultimo])) := by
  induction n with
  | zero =>
    intro a h
    exact siempreLee_ronda h fun _ _ _ _ _ _ => trivial
  | succ n ih =>
    intro a h
    exact siempreLee_ronda h fun b socket sucesos b' hb hpaso => ih (estado_tras_perder hb hpaso)

/-! ## The map's side -/

/-- One of the two pokemons of a battle loses. -/
def Fabrica.Decide (f : Fabrica) : Prop :=
  ∀ p q, f.pelear p q = some p ∨ f.pelear p q = some q

theorem resolverDeadlock_cases {f : Fabrica} (h : f.Decide) (p q : Pokemona) :
    resolverDeadlock f p q = 1 ∨ resolverDeadlock f p q = 2 := by
  unfold resolverDeadlock
  dsimp only
  cases h (f.crear p.species p.lvlPokemon) (f.crear q.species q.lvlPokemon) with
  | inl hp =>
    rw [hp]
    simp
  | inr hq =>
    rw [hq]
    by_cases hsp : f.species (f.crear q.species q.lvlPokemon) =
        f.species (f.crear p.species p.lvlPokemon)
    · simp [hsp]
    · simp [hsp]

theorem hayPokenest_reintegrado {a a' : Almacen} {path : Nombre} {id : UInt8}
    (h : reintegrarRecurso path id a = (some ⟨⟩, a')) (id' : UInt8) :
    a'.hayPokenest id' = a.hayPokenest id' := by
  have hsumar : ∀ ps : List Pokenest, (sumarCant id 1 ps).any (fun p => p.identificador = id') =
      ps.any fun p => p.identificador = id' := by
    intro ps
    induction ps with
    | nil => rfl
    | cons p ps ih =>
      rw [sumarCant]
      split
      · rfl
      · rw [List.any_cons, List.any_cons, ih]
  unfold reintegrarRecurso at h
  dsimp only at h
  split at h
  · split at h
    · obtain ⟨_, rfl⟩ := Op.some_inj h
      exact hsumar _
    · simp at h
  · simp at h

/-- What a trainer holds can be given back if the map has a pokenest for each of its pokemons. -/
theorem reintegrarRecursos_vuelve (path : Nombre) {recursos : List UInt8} : ∀ {a : Almacen},
    (∀ id ∈ recursos, a.hayPokenest id = true) →
      ∃ a', reintegrarRecursos path recursos a = (some ⟨⟩, a') := by
  induction recursos with
  | nil =>
    intro a _
    exact ⟨a, rfl⟩
  | cons id recursos ih =>
    intro a h
    have hid := h id List.mem_cons_self
    obtain ⟨a', ha'⟩ : ∃ a', reintegrarRecurso path id a = (some ⟨⟩, a') := by
      unfold reintegrarRecurso
      cases hget : a.getPokenestById id with
      | some pokenest => exact ⟨_, if_pos hid⟩
      | none =>
        have hvacio : a.listaPokenest = [] := by
          unfold Almacen.getPokenestById at hget
          exact List.getLast?_eq_none_iff.mp (Option.or_eq_none_iff.mp hget).2
        simp [Almacen.hayPokenest, hvacio] at hid
    obtain ⟨a'', ha''⟩ := ih fun id' hmem =>
      (hayPokenest_reintegrado ha' id').trans (h id' (List.mem_cons_of_mem id hmem))
    exact ⟨a'', (Op.bind_some ha').trans ha''⟩

/-- The map after the last battle: the loser has given back what it had and is no longer blocked. -/
def trasCastigo (perdedor : ℕ) (m : Estado) : Estado :=
  { m with
    toAlmacen := (reintegrarRecursos (m.pcb perdedor).pathEntrenador
      (m.recursos (m.pcb perdedor).listaRecursos) m.toAlmacen).2
    listaBloqueados := m.listaBloqueados.eraseP fun p => m.sock p = m.sock perdedor }

/-- Everything a trainer holds is of a pokenest of the map. -/
def Estado.Reintegrable (m : Estado) (p : ℕ) : Prop :=
  ∀ id ∈ m.recursos (m.pcb p).listaRecursos, m.hayPokenest id = true

theorem castigar_ultimos {m : Estado} {perdedor : ℕ} (h : m.Reintegrable perdedor) :
    castigar true perdedor m = (some morite, trasCastigo perdedor m) := by
  obtain ⟨a, ha⟩ := reintegrarRecursos_vuelve (m.pcb perdedor).pathEntrenador h
  have hlib : liberarRecursosBloqueados perdedor m = (some ⟨⟩, { m with toAlmacen := a }) := by
    rw [liberarRecursosBloqueados, Op.get_bind]
    exact Op.zoom_eq ha
  rw [castigar, if_pos rfl, Op.bind_some hlib, Op.modify_bind, Op.pure_apply, trasCastigo, ha]
  rfl

section Codigo
variable {f : Fabrica} {m : Estado}

/-- What a battle leaves of the list and of the map. -/
def trasBatalla (m : Estado) (resultado a b : ℕ) (resto : List ℕ) : Estado :=
  let x := perdedorDe resultado a b
  let es := mensajesBatalla m.sock resto.isEmpty a b x (ganadorDe resultado a b)
  let m' := { m with enviados := m.enviados ++ es }
  if resto = [] then trasCastigo x m' else m'

theorem repartir_eq {a b x y : ℕ} {resto : List ℕ} (h : resto = [] → m.Reintegrable x) :
    (enviarMensaje a .estasEnDeadlock >>= fun _ => enviarMensaje b .estasEnDeadlock >>= fun _ =>
        repartir resto.isEmpty x y) m =
      (some ⟨⟩, if resto = [] then
        trasCastigo x { m with
          enviados := m.enviados ++ mensajesBatalla m.sock resto.isEmpty a b x y }
        else { m with
          enviados := m.enviados ++ mensajesBatalla m.sock resto.isEmpty a b x y }) := by
  rw [enviarMensaje, Op.modify_bind, enviarMensaje, Op.modify_bind, repartir]
  by_cases hvacio : resto = []
  · rw [if_pos hvacio, hvacio, List.isEmpty_nil]
    have hcas := castigar_ultimos (m := (m.enviar (m.sock a) .estasEnDeadlock).enviar
      ((m.enviar (m.sock a) .estasEnDeadlock).sock b) .estasEnDeadlock) (h hvacio)
    rw [Op.bind_some hcas, enviarMensaje, Op.modify_bind]
    simp [enviarMensaje, Op.modify, trasCastigo, Estado.enviar, Estado.sock, mensajesBatalla]
    rfl
  · have hno : resto.isEmpty = false := List.isEmpty_eq_false_iff.mpr hvacio
    rw [if_neg hvacio, hno, castigar, if_neg (by simp), Op.pure_bind', enviarMensaje,
      Op.modify_bind]
    simp [enviarMensaje, Op.modify, Estado.enviar, Estado.sock, mensajesBatalla]

theorem batalla_eq {pokemones : Pokemona × Pokemona} {a b : ℕ} {resto : List ℕ} {n : ℕ}
    (hn : resolverDeadlock f pokemones.1 pokemones.2 = n) (hd : n = 1 ∨ n = 2)
    (h : resto = [] → m.Reintegrable (perdedorDe n a b)) :
    batalla f pokemones (a :: b :: resto) m =
      (some (perdedorDe n a b :: resto), trasBatalla m n a b resto) := by
  rw [batalla, ← Op.bind_assoc]
  dsimp only
  cases hd with
  | inl h1 =>
    subst h1
    have hrep := repartir_eq (a := a) (b := b) (x := a) (y := b) h
    rw [← Op.bind_assoc] at hrep
    rw [hn, if_pos rfl, ← Op.bind_assoc, Op.bind_some hrep]
    rfl
  | inr h2 =>
    subst h2
    have hrep := repartir_eq (a := a) (b := b) (x := b) (y := a) h
    rw [← Op.bind_assoc] at hrep
    rw [hn, if_neg (by decide), if_pos rfl, ← Op.bind_assoc, Op.bind_some hrep]
    rfl

theorem batallas_torneo (hf : f.Decide) (pokemones : ℕ → Pokemona × Pokemona) {resto : List ℕ} :
    ∀ (fuel k a : ℕ) (m : Estado), resto.length ≤ fuel →
      (∀ p ∈ a :: resto, m.Reintegrable p) → resto ≠ [] →
      Op.whileDo (fun e : ℕ × List ℕ => 1 < e.2.length)
        (fun e => do
          let marcados ← batalla f (pokemones e.1) e.2
          pure (e.1 + 1, marcados)) fuel (k, a :: resto) m =
      (some (k + resto.length,
          [torneo (fun k => resolverDeadlock f (pokemones k).1 (pokemones k).2) k a resto]),
        trasCastigo (torneo (fun k => resolverDeadlock f (pokemones k).1 (pokemones k).2) k a resto)
          { m with
            enviados := m.enviados ++ mensajesTorneo m.sock
              (fun k => resolverDeadlock f (pokemones k).1 (pokemones k).2) k a resto }) := by
  induction resto with
  | nil =>
    intro fuel k a m _ _ hne
    exact absurd rfl hne
  | cons b resto ih =>
    intro fuel k a m hfuel hrec _
    obtain ⟨fuel, rfl⟩ : ∃ n, fuel = n + 1 :=
      ⟨fuel - 1, by simp only [List.length_cons] at hfuel; omega⟩
    have hx : m.Reintegrable
        (perdedorDe (resolverDeadlock f (pokemones k).1 (pokemones k).2) a b) :=
      hrec _ (mem_of_perdedor List.mem_cons_self)
    have hbat : batalla f (pokemones k) (a :: b :: resto) m = _ :=
      batalla_eq rfl (resolverDeadlock_cases hf (pokemones k).1 (pokemones k).2) fun _ => hx
    rw [Op.whileDo, if_pos (by simp), Op.bind_assoc, Op.bind_some hbat, Op.pure_bind']
    by_cases hvacio : resto = []
    · subst hvacio
      cases fuel <;> simp [Op.whileDo, trasBatalla, torneo, mensajesTorneo]
    · have hfin := ih fuel (k + 1)
        (perdedorDe (resolverDeadlock f (pokemones k).1 (pokemones k).2) a b)
        (trasBatalla m (resolverDeadlock f (pokemones k).1 (pokemones k).2) a b resto)
        (by simp only [List.length_cons] at hfuel; omega) ?_ hvacio
      · rw [hfin]
        simp only [trasBatalla, if_neg hvacio, torneo, mensajesTorneo, List.append_assoc,
          List.length_cons, Nat.add_assoc, Nat.add_comm 1]
        rfl
      · intro p hp
        unfold trasBatalla
        rw [if_neg hvacio]
        exact hrec p (mem_of_perdedor hp)

end Codigo

/-! ## All the battles -/

/-- The last battle is that of the loser of the others with the last trainer of the list. -/
theorem torneo_concat (r : ℕ → ℕ) (y : ℕ) (resto : List ℕ) : ∀ k a : ℕ,
    torneo r k a (resto ++ [y]) = perdedorDe (r (k + resto.length)) (torneo r k a resto) y := by
  induction resto with
  | nil => exact fun _ _ => rfl
  | cons b resto ih =>
    intro k a
    rw [List.cons_append, torneo, torneo, ih, List.length_cons,
      show k + 1 + resto.length = k + (resto.length + 1) by omega]

/-- What is said of the battles: there are as many as trainers but one; the loser of the last of
them is the one that dies; everyone else wins once; and every trainer reads each message in its
state. -/
def BatallasCumplidas (f : Fabrica) (pokemones : ℕ → Pokemona × Pokemona) (m : Estado)
    (marcados : List ℕ) : Prop :=
  ∃ perdedor ∈ marcados, ∃ es : List (ℤ × Envio),
    (∀ fuel, marcados.length - 1 ≤ fuel → batallas f pokemones fuel marcados m =
      (some (marcados.length - 1, [perdedor]),
        trasCastigo perdedor { m with enviados := m.enviados ++ es })) ∧
    (∃ a resto y, marcados = a :: (resto ++ [y]) ∧
      perdedor = perdedorDe (resolverDeadlock f (pokemones resto.length).1
        (pokemones resto.length).2)
        (torneo (fun k => resolverDeadlock f (pokemones k).1 (pokemones k).2) 0 a resto) y) ∧
    (∀ s, (∀ p ∈ marcados, s ≠ m.sock p) → enviadosA s es = []) ∧
    (∀ p ∈ marcados, ∃ n, enviadosA (m.sock p) es =
      rondas (List.replicate n Entrenador.estasEnDeadlock ++
        [if p = perdedor then morite else ganaste])) ∧
    ∀ p ∈ marcados, ∀ (objetivos : List UInt8) (a : Aventura), a.estado = .bloqueado →
      SiempreLee objetivos a (enviadosA (m.sock p) es)

/-- For every library that decides its battles, and whatever the trainers send. -/
theorem batallas_cumplidas {f : Fabrica} (hf : f.Decide) (pokemones : ℕ → Pokemona × Pokemona)
    {m : Estado} {marcados : List ℕ} (hn : 2 ≤ marcados.length)
    (hsock : (marcados.map m.sock).Nodup) (hrec : ∀ p ∈ marcados, m.Reintegrable p) :
    BatallasCumplidas f pokemones m marcados := by
  cases marcados with
  | nil => simp at hn
  | cons a resto =>
    have hne : resto ≠ [] := by
      intro he
      simp [he] at hn
    have hinj : ∀ p ∈ a :: resto, ∀ q ∈ a :: resto, m.sock p = m.sock q → p = q :=
      fun p hp q hq => List.inj_on_of_nodup_map hsock hp hq
    have hlen : (a :: resto).length - 1 = resto.length := rfl
    let r := fun k => resolverDeadlock f (pokemones k).1 (pokemones k).2
    have henv : ∀ p ∈ a :: resto, ∃ n, enviadosA (m.sock p) (mensajesTorneo m.sock r 0 a resto) =
        rondas (List.replicate n Entrenador.estasEnDeadlock ++
          [if p = torneo r 0 a resto then morite else ganaste]) :=
      fun p hp => enviadosA_torneo hne hinj (List.Nodup.of_map _ hsock) hp
    refine ⟨torneo r 0 a resto, torneo_mem _ _ _ _, mensajesTorneo m.sock r 0 a resto, ?_, ?_, ?_,
      henv, ?_⟩
    · intro fuel hfuel
      rw [hlen] at hfuel ⊢
      have hrun := batallas_torneo hf pokemones fuel 0 a m hfuel hrec hne
      rw [Nat.zero_add] at hrun
      exact hrun
    · refine ⟨a, resto.dropLast, resto.getLast hne, ?_, ?_⟩
      · rw [List.dropLast_append_getLast hne]
      · have hult := torneo_concat r (resto.getLast hne) resto.dropLast 0 a
        rw [List.dropLast_append_getLast hne, Nat.zero_add] at hult
        exact hult
    · intro s hs
      exact enviadosA_torneo_otro hs
    · intro p hp objetivos b hb
      obtain ⟨n, hn⟩ := henv p hp
      rw [hn]
      exact siempreLee_rondas n _ hb

/-- The lowest level loses. -/
def fabricaDeNiveles : Fabrica where
  Pokemon := Nombre × ℤ
  crear species nivel := (species, nivel)
  species := Prod.fst
  pelear p q := if p.2 ≤ q.2 then some p else some q

/-- A map with a species and three trainers that hold one of its pokemons each. -/
def mapaDeTres : Estado where
  listaPokenest := [⟨66, [66], ⟨3, 3⟩, 0⟩]
  directorios := [⟨[66], 66, ⟨3, 3⟩⟩]
  pokeNests _ := []
  dirDeBill _ := []
  pcb p :=
    { sockfd := 5 + p, pathEntrenador := [UInt8.ofNat p], punto := ⟨3, 3⟩,
      proximaPokenest := ⟨66, [66], ⟨3, 3⟩, 0⟩, listaRecursos := p, direccionDesconocida := true }
  recursos _ := [66]
  libre := 3
  listaListos := []
  listaBloqueados := [0, 1, 2]
  enviados := []
  quantum := 3
  batalla := true

theorem batallas_cumplidas_tres : BatallasCumplidas fabricaDeNiveles
    (fun k => (⟨[66], k⟩, ⟨[66, 98], 1⟩)) mapaDeTres [0, 1, 2] := by
  apply batallas_cumplidas
  · intro p q
    unfold fabricaDeNiveles
    dsimp only
    split
    · exact .inl rfl
    · exact .inr rfl
  · decide
  · decide
  · intro p _ id hid
    have h66 : id = 66 := List.mem_singleton.mp hid
    rw [h66]
    rfl

/-! ## Whose pokemon loses -/

/-- One of the two arguments of `pkmn_battle`, as an object: the other one may look the same. -/
inductive Esquina where
  | primera
  | segunda
  deriving DecidableEq, Repr

namespace Esquina

def numero : Esquina → ℕ
  | primera => 1
  | segunda => 2

def elegir {α : Type} : Esquina → α → α → α
  | primera, x, _ => x
  | segunda, _, y => y

theorem perdedorDe_numero (e : Esquina) (a b : ℕ) : perdedorDe e.numero a b = e.elegir a b := by
  cases e <;> rfl

theorem numero_cases (e : Esquina) : e.numero = 1 ∨ e.numero = 2 := by
  cases e
  · exact .inl rfl
  · exact .inr rfl

end Esquina

/-- `pkmn_battle` returns the pokemon of that corner. -/
def Fabrica.Pierde (f : Fabrica) (primero segundo : Pokemona) (e : Esquina) : Prop :=
  f.pelear (f.crear primero.species primero.lvlPokemon)
      (f.crear segundo.species segundo.lvlPokemon) =
    some (e.elegir (f.crear primero.species primero.lvlPokemon)
      (f.crear segundo.species segundo.lvlPokemon))

/-- The owner of the pokemon of that corner loses, and the other one wins: the loser goes on to the
next battle or, in the last one, dies. -/
structure Fabrica.Justa (f : Fabrica) (primero segundo : Pokemona) (e : Esquina) : Prop where
  primera : resolverDeadlock f primero segundo = 1 ↔ e = .primera
  segunda : resolverDeadlock f primero segundo = 2 ↔ e = .segunda
  batalla : ∀ (m : Estado) (a b : ℕ) (resto : List ℕ),
    (resto = [] → m.Reintegrable (e.elegir a b)) →
    batalla f (primero, segundo) (a :: b :: resto) m =
      (some (e.elegir a b :: resto), trasBatalla m e.numero a b resto)

theorem resolverDeadlock_pierde {f : Fabrica} (hcrear : ∀ s n, f.species (f.crear s n) = s)
    {primero segundo : Pokemona} {e : Esquina} (h : f.Pierde primero segundo e) :
    resolverDeadlock f primero segundo =
      if primero.species = segundo.species then 1 else e.numero := by
  unfold resolverDeadlock
  dsimp only
  rw [h]
  cases e with
  | primera => simp [Esquina.elegir, Esquina.numero]
  | segunda =>
    simp only [Esquina.elegir, Esquina.numero, hcrear, if_true]
    by_cases heq : primero.species = segundo.species
    · rw [if_pos heq.symm, if_pos heq]
    · rw [if_neg (Ne.symm heq), if_neg heq]

/-- With two pokemons of one species it is the first one that loses. -/
theorem justa_iff {f : Fabrica} (hcrear : ∀ s n, f.species (f.crear s n) = s)
    {primero segundo : Pokemona} {e : Esquina} (h : f.Pierde primero segundo e) :
    f.Justa primero segundo e ↔ (primero.species = segundo.species → e = .primera) := by
  have hres := resolverDeadlock_pierde hcrear h
  constructor
  · intro hjusta heq
    rw [if_pos heq] at hres
    exact hjusta.primera.mp hres
  · intro hcond
    have hnumero : resolverDeadlock f primero segundo = e.numero := by
      rw [hres]
      split
      · next heq =>
        rw [hcond heq]
        rfl
      · rfl
    refine ⟨?_, ?_, ?_⟩
    · rw [hnumero]
      cases e <;> decide
    · rw [hnumero]
      cases e <;> decide
    · intro m a b resto hvuelve
      rw [← e.perdedorDe_numero a b] at hvuelve ⊢
      exact batalla_eq hnumero e.numero_cases hvuelve

theorem justa_iff_niveles : fabricaDeNiveles.Justa ⟨[66], 7⟩ ⟨[67], 5⟩ .segunda ↔
    (([66] : Nombre) = [67] → Esquina.segunda = .primera) :=
  justa_iff (fun _ _ => rfl) rfl

/-- The pokemon of level 5 loses to the one of level 7, and the owner of this one dies. -/
theorem muere_el_ganador : fabricaDeNiveles.Pierde ⟨[66], 7⟩ ⟨[66], 5⟩ .segunda ∧
    resolverDeadlock fabricaDeNiveles ⟨[66], 7⟩ ⟨[66], 5⟩ = 1 ∧
    (batalla fabricaDeNiveles (⟨[66], 7⟩, ⟨[66], 5⟩) [0, 1] mapaDeTres).1 = some [0] ∧
    (batalla fabricaDeNiveles (⟨[66], 7⟩, ⟨[66], 5⟩) [0, 1] mapaDeTres).2.listaBloqueados =
      [1, 2] :=
  ⟨rfl, by decide, by decide, by decide⟩

end TpSo.Mapa
