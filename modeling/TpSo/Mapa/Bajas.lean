import TpSo.Mapa.Batalla
import TpSo.Mapa.Interbloqueo

/-!
# What a detection does

`caidoDe` is the trainer that dies in the battles, and `Peleado` what they leave. `Deteccion` says
what the whole of `detectarDeadLock` does to the lists and to the units, from the state before it.
-/

namespace TpSo.Mapa

open Entrenador (morite)

/-! ## Releases -/

def devolver (ids : List UInt8) (l : List Pokenest) : List Pokenest :=
  ids.foldl (fun l id => sumarCant id 1 l) l

theorem identificadores_sumarCant (id : UInt8) (k : ℤ) (l : List Pokenest) :
    (sumarCant id k l).map Pokenest.identificador = l.map Pokenest.identificador := by
  have hfichas := congrArg (List.map Prod.fst) (sumarCant_fichas id k l)
  rwa [List.map_map, List.map_map] at hfichas

theorem identificadores_devolver (ids : List UInt8) (l : List Pokenest) :
    (devolver ids l).map Pokenest.identificador = l.map Pokenest.identificador := by
  induction ids generalizing l with
  | nil => rfl
  | cons id ids ih =>
    rw [devolver, List.foldl_cons]
    exact (ih _).trans (identificadores_sumarCant id 1 l)

theorem listaPokenest_reintegrarRecursos {path : Nombre} {ids : List UInt8} {a a' : Almacen}
    (h : reintegrarRecursos path ids a = (some ⟨⟩, a')) :
    a'.listaPokenest = devolver ids a.listaPokenest := by
  induction ids generalizing a with
  | nil =>
    obtain ⟨_, rfl⟩ := Op.some_inj h
    rfl
  | cons id ids ih =>
    obtain ⟨_, a₁, h₁, _⟩ := Op.of_bind (congrArg Prod.fst h)
    rw [reintegrarRecursos, Op.bind_some h₁] at h
    rw [ih h]
    unfold reintegrarRecurso at h₁
    dsimp only at h₁
    split at h₁
    · split at h₁
      · obtain ⟨_, rfl⟩ := Op.some_inj h₁
        rfl
      · cases h₁
    · cases h₁

/-- The release of a trainer changes the store and nothing else. -/
theorem liberarRecursosBloqueados_some {m m' : Estado} {p : ℕ}
    (h : liberarRecursosBloqueados p m = (some ⟨⟩, m')) :
    ∃ a : Almacen, m' = { m with toAlmacen := a } ∧
      a.listaPokenest = devolver (m.capturados p) m.listaPokenest := by
  rw [liberarRecursosBloqueados, Op.get_bind] at h
  dsimp only [id_eq] at h
  rcases hr : reintegrarRecursos (m.pcb p).pathEntrenador (m.recursos (m.pcb p).listaRecursos)
    m.toAlmacen with ⟨_ | _, a⟩
  · rw [Op.zoom_eq hr] at h
    cases h
  · rw [Op.zoom_eq hr] at h
    obtain ⟨_, rfl⟩ := Op.some_inj h
    exact ⟨a, rfl, listaPokenest_reintegrarRecursos hr⟩

/-! ## Battles -/

/-- Who dies in the battles among the trainers of the list, from the battle `k` on. -/
def caidoDe (f : Fabrica) (pokemones : ℕ → Pokemona × Pokemona) : ℕ → ℕ → List ℕ → Option ℕ
  | fuel + 1, k, a :: b :: resto =>
    let perdedor := resolverDeadlock f (pokemones k).1 (pokemones k).2
    if perdedor = 1 ∨ perdedor = 2 then
      if resto.isEmpty then some (perdedorDe perdedor a b)
      else caidoDe f pokemones fuel (k + 1) (perdedorDe perdedor a b :: resto)
    else caidoDe f pokemones fuel (k + 1) (a :: b :: resto)
  | _, _, _ => none

theorem caidoDe_mem {f : Fabrica} {pokemones : ℕ → Pokemona × Pokemona} {c : ℕ} (fuel : ℕ) :
    ∀ {k : ℕ} {l : List ℕ}, caidoDe f pokemones fuel k l = some c → c ∈ l := by
  induction fuel with
  | zero =>
    intro k l h
    cases h
  | succ fuel ih =>
    intro k l h
    match l, h with
    | a :: b :: resto, h =>
      unfold caidoDe at h
      dsimp only at h
      split at h
      · split at h
        · rw [← Option.some.inj h]
          exact mem_of_perdedor List.mem_cons_self
        · exact mem_of_perdedor (ih h)
      · exact ih h

structure Peleado (m : Estado) (c : Option ℕ) (m' : Estado) : Prop where
  igual : m' = { m with
    toAlmacen := m'.toAlmacen, listaBloqueados := m'.listaBloqueados, enviados := m'.enviados }
  listaBloqueados : m'.listaBloqueados =
    c.elim m.listaBloqueados fun c => m.listaBloqueados.eraseP fun p => m.sock p = m.sock c
  listaPokenest : m'.listaPokenest =
    c.elim m.listaPokenest fun c => devolver (m.capturados c) m.listaPokenest
  enviados : ∃ es, m'.enviados = m.enviados ++ es ∧
    ∀ k, (k, Envio.resultado morite) ∈ es ↔ c.map m.sock = some k

section Peleado
variable {f : Fabrica} {m m₁ m' : Estado} {c : Option ℕ}

theorem Peleado.refl (m : Estado) : Peleado m none m := ⟨rfl, rfl, rfl, [], by simp, by simp⟩

theorem Peleado.trans (h : Peleado m none m₁) (h' : Peleado m₁ c m') : Peleado m c m' := by
  obtain ⟨es, he, hes⟩ := h.enviados
  obtain ⟨es', he', hes'⟩ := h'.enviados
  have hsock : m₁.sock = m.sock := by rw [h.igual]; rfl
  have hcap : m₁.capturados = m.capturados := by rw [h.igual]; rfl
  constructor
  · rw [h'.igual, h.igual]
  · rw [h'.listaBloqueados, h.listaBloqueados, hsock]
    rfl
  · rw [h'.listaPokenest, h.listaPokenest, hcap]
    rfl
  · refine ⟨es ++ es', by rw [he', he, List.append_assoc], ?_⟩
    intro k
    rw [List.mem_append, hes, hes', hsock]
    simp

theorem Peleado.enviar (m : Estado) (k : ℤ) {e : Envio} (he : e ≠ .resultado morite) :
    Peleado m none (m.enviar k e) := by
  refine ⟨rfl, rfl, rfl, [(k, e)], rfl, ?_⟩
  intro k'
  simp [he.symm]

theorem peleado_repartir {ultimos : Bool} {x y : ℕ}
    (h : repartir ultimos x y m = (some ⟨⟩, m')) :
    Peleado m (if ultimos then some x else none) m' := by
  cases ultimos with
  | false =>
    rw [repartir, castigar, if_neg (by simp), Op.pure_bind', enviarMensaje, Op.modify_bind,
      enviarMensaje] at h
    obtain ⟨_, rfl⟩ := Op.some_inj h
    exact (Peleado.enviar m _ (by decide)).trans (Peleado.enviar _ _ (by decide))
  | true =>
    obtain ⟨n, m₁, hcas, _⟩ := Op.of_bind (congrArg Prod.fst h)
    rw [repartir, Op.bind_some hcas, enviarMensaje, Op.modify_bind, enviarMensaje] at h
    obtain ⟨_, rfl⟩ := Op.some_inj h
    obtain ⟨_, m₂, hlib, _⟩ := Op.of_bind (congrArg Prod.fst hcas)
    rw [castigar, if_pos rfl, Op.bind_some hlib, Op.modify_bind] at hcas
    obtain ⟨rfl, rfl⟩ := Op.some_inj hcas
    obtain ⟨a, rfl, ha⟩ := liberarRecursosBloqueados_some hlib
    refine ⟨rfl, rfl, ha, [(m.sock x, .resultado morite), (m.sock y, .resultado 12)], ?_, ?_⟩
    · exact List.append_assoc _ _ _
    · intro k
      have h12 : Envio.resultado morite ≠ .resultado 12 := by decide
      simp [h12, eq_comm]

theorem peleado_batalla {pokemones : Pokemona × Pokemona} {a b n : ℕ} {resto l : List ℕ}
    (hn : resolverDeadlock f pokemones.1 pokemones.2 = n)
    (h : batalla f pokemones (a :: b :: resto) m = (some l, m')) :
    (n = 1 ∨ n = 2) ∧ l = perdedorDe n a b :: resto ∧
        Peleado m (if resto.isEmpty then some (perdedorDe n a b) else none) m' ∨
      ¬ (n = 1 ∨ n = 2) ∧ l = a :: b :: resto ∧ Peleado m none m' := by
  have hretos : Peleado m none ((m.enviar (m.sock a) .estasEnDeadlock).enviar
      ((m.enviar (m.sock a) .estasEnDeadlock).sock b) .estasEnDeadlock) :=
    (Peleado.enviar m _ (by decide)).trans (Peleado.enviar _ _ (by decide))
  rw [batalla, enviarMensaje, Op.modify_bind, enviarMensaje, Op.modify_bind] at h
  rw [hn] at h
  split at h
  · next h1 =>
    obtain ⟨_, m₁, hrep, _⟩ := Op.of_bind (congrArg Prod.fst h)
    rw [Op.bind_some hrep] at h
    obtain ⟨rfl, rfl⟩ := Op.some_inj h
    refine .inl ⟨.inl h1, by rw [perdedorDe, if_pos h1], hretos.trans ?_⟩
    rw [perdedorDe, if_pos h1]
    exact peleado_repartir hrep
  · next h1 =>
    split at h
    · next h2 =>
      obtain ⟨_, m₁, hrep, _⟩ := Op.of_bind (congrArg Prod.fst h)
      rw [Op.bind_some hrep] at h
      obtain ⟨rfl, rfl⟩ := Op.some_inj h
      refine .inl ⟨.inr h2, by rw [perdedorDe, if_neg h1], hretos.trans ?_⟩
      rw [perdedorDe, if_neg h1]
      exact peleado_repartir hrep
    · next h2 =>
      obtain ⟨rfl, rfl⟩ := Op.some_inj h
      exact .inr ⟨not_or.mpr ⟨h1, h2⟩, rfl, hretos⟩

theorem peleado_batallas {pokemones : ℕ → Pokemona × Pokemona} (fuel : ℕ) :
    ∀ {k : ℕ} {l : List ℕ} {x : ℕ × List ℕ} {m : Estado},
      Op.whileDo (fun e : ℕ × List ℕ => 1 < e.2.length)
        (fun e => do
          let marcados ← batalla f (pokemones e.1) e.2
          pure (e.1 + 1, marcados)) fuel (k, l) m = (some x, m') →
      Peleado m (caidoDe f pokemones fuel k l) m' := by
  induction fuel with
  | zero =>
    intro k l x m h
    unfold Op.whileDo at h
    split at h
    · cases h
    · obtain ⟨_, rfl⟩ := Op.some_inj h
      exact .refl m
  | succ fuel ih =>
    intro k l x m h
    unfold Op.whileDo at h
    rcases l with _ | ⟨a, _ | ⟨b, resto⟩⟩
    · rw [if_neg (by simp)] at h
      obtain ⟨_, rfl⟩ := Op.some_inj h
      exact .refl m
    · rw [if_neg (by simp)] at h
      obtain ⟨_, rfl⟩ := Op.some_inj h
      exact .refl m
    · rw [if_pos (by simp), Op.bind_assoc] at h
      obtain ⟨l', m₁, hbat, _⟩ := Op.of_bind (congrArg Prod.fst h)
      rw [Op.bind_some hbat, Op.pure_bind'] at h
      unfold caidoDe
      dsimp only
      rcases peleado_batalla rfl hbat with ⟨hd, rfl, hp⟩ | ⟨hd, rfl, hp⟩
      · rw [if_pos hd]
        cases hresto : resto.isEmpty with
        | true =>
          obtain rfl := List.isEmpty_iff.mp hresto
          -- the loop ends: only the one who has died is left
          have hfin : m₁ = m' := by
            cases fuel with
            | zero => exact (Op.some_inj h).2
            | succ fuel => exact (Op.some_inj h).2
          rwa [if_pos rfl, ← hfin, hresto] at *
        | false =>
          rw [hresto] at hp
          rw [if_neg (by simp)]
          exact hp.trans (ih h)
      · rw [if_neg hd]
        exact hp.trans (ih h)

end Peleado

/-! ## Detections -/

/-- `listaNoMarcados`: the copies that become ready. -/
def noMarcados (basura : ℕ → ℤ) (m : Estado) : List ℕ :=
  match copiarEntrenadores m with
  | (some entrenadores, m) => (marcarEntrenadores basura entrenadores m).2
  | (none, _) => []

/-- The copies that become ready in a detection. -/
def sueltos (peleas : Peleas) (m : Estado) : List ℕ :=
  if m.batalla then noMarcados peleas.basura m else []

def quienCae (f : Fabrica) (peleas : Peleas) (m : Estado) : Option ℕ :=
  if m.batalla then
    (caidoDe f peleas.pokemones peleas.cuantas 0 (marcados peleas.basura m)).bind fun c =>
      m.listaBloqueados[c - m.libre]?
  else none

theorem quienCae_mem {f : Fabrica} {peleas : Peleas} {m : Estado} {c : ℕ}
    (h : quienCae f peleas m = some c) : c ∈ m.listaBloqueados := by
  unfold quienCae at h
  split at h
  · obtain ⟨_, _, hc⟩ := Option.bind_eq_some_iff.mp h
    exact List.mem_of_getElem? hc
  · cases h

/-- Some pokenest has a unit of what the trainer waits for. -/
def Estado.hayPara (m : Estado) (p : ℕ) : Bool := m.listaPokenest.any fun recurso =>
  (m.pcb p).proximaPokenest.identificador = recurso.identificador ∧ 1 ≤ recurso.cant

/-- Of the blocked trainers that do not die none waits for a species of which there is a unit, or
of which the one that dies holds one. -/
def NadieSigue (f : Fabrica) (peleas : Peleas) (m : Estado) : Prop :=
  ∀ p ∈ m.listaBloqueados, (quienCae f peleas m).map m.sock ≠ some (m.sock p) →
    m.hayPara p = false ∧ ∀ c ∈ quienCae f peleas m,
      (m.pcb p).proximaPokenest.identificador ∉ m.capturados c

instance (f : Fabrica) (peleas : Peleas) (m : Estado) : Decidable (NadieSigue f peleas m) :=
  inferInstanceAs (Decidable (∀ p ∈ m.listaBloqueados, _ → _ ∧ ∀ c ∈ quienCae f peleas m, _))

def quedanBloqueados (f : Fabrica) (peleas : Peleas) (m : Estado) : List ℕ :=
  (quienCae f peleas m).elim m.listaBloqueados
    fun c => m.listaBloqueados.eraseP fun p => m.sock p = m.sock c

/-- Once the battles are over there is a unit of what the trainer waits for. -/
def hayLuego (f : Fabrica) (peleas : Peleas) (m : Estado) (p : ℕ) : Bool :=
  ((quienCae f peleas m).elim m.listaPokenest
    fun c => devolver (m.capturados c) m.listaPokenest).any fun recurso =>
      (m.pcb p).proximaPokenest.identificador = recurso.identificador ∧ 1 ≤ recurso.cant

/-- The blocked trainers whose copies become ready. -/
def originales (peleas : Peleas) (m : Estado) : List ℕ :=
  (sueltos peleas m).filterMap fun c => m.listaBloqueados[c - m.libre]?

/-- Only the last of the blocked trainers can be let go, and just it becomes ready if it is. -/
def PasaElMismo (f : Fabrica) (peleas : Peleas) (m : Estado) : Prop :=
  (m.listaPokenest.map Pokenest.identificador).Nodup ∧
    (∀ p ∈ (quedanBloqueados f peleas m).dropLast, hayLuego f peleas m p = false) ∧
    originales peleas m = (quedanBloqueados f peleas m).filter (hayLuego f peleas m)

instance (f : Fabrica) (peleas : Peleas) (m : Estado) : Decidable (PasaElMismo f peleas m) :=
  inferInstanceAs (Decidable (_ ∧ _ ∧ _))

structure Pelea (f : Fabrica) (peleas : Peleas) (m m' : Estado) : Prop where
  listaListos : m'.listaListos = m.listaListos ++ sueltos peleas m
  sueltos : ∀ p ∈ sueltos peleas m, p < m'.libre
  copias : ∀ p ∈ Mapa.sueltos peleas m,
    ∃ q, m.listaBloqueados[p - m.libre]? = some q ∧ m'.pcb p = m.pcb q
  libre : m.libre ≤ m'.libre
  pcb : ∀ p < m.libre, m'.pcb p = m.pcb p
  recursos : m'.recursos = m.recursos
  listaBloqueados : m'.listaBloqueados = quedanBloqueados f peleas m
  listaPokenest : m'.listaPokenest = (quienCae f peleas m).elim m.listaPokenest
    fun c => devolver (m.capturados c) m.listaPokenest
  enviados : ∃ es, m'.enviados = m.enviados ++ es ∧
    ∀ k, (k, Envio.resultado morite) ∈ es ↔ (quienCae f peleas m).map m.sock = some k

theorem eraseP_congr {α : Type} {l : List α} {p q : α → Bool} (h : ∀ x ∈ l, p x = q x) :
    l.eraseP p = l.eraseP q := by
  induction l with
  | nil => rfl
  | cons x l ih =>
    rw [List.eraseP_cons, List.eraseP_cons, h x (by simp), ih fun y hy => h y (by simp [hy])]

theorem copiarEntrenadores_some {m m₁ : Estado} {entrenadores : List ℕ}
    (h : copiarEntrenadores m = (some entrenadores, m₁)) :
    m₁ = { m with pcb := m₁.pcb, libre := m₁.libre } ∧ m.libre ≤ m₁.libre ∧
      (∀ p < m.libre, m₁.pcb p = m.pcb p) ∧
      ∀ c ∈ entrenadores, c < m₁.libre ∧
        ∃ q, m.listaBloqueados[c - m.libre]? = some q ∧ m₁.pcb c = m.pcb q := by
  unfold copiarEntrenadores at h
  split at h
  · obtain ⟨rfl, rfl⟩ := Op.some_inj h
    refine ⟨rfl, Nat.le_add_right _ _, fun p hp => if_neg (Nat.not_le.mpr hp), ?_⟩
    intro c hc
    obtain ⟨hle, hlt⟩ := List.mem_range'_1.mp hc
    obtain ⟨q, hq⟩ : ∃ q, m.listaBloqueados[c - m.libre]? = some q :=
      ⟨_, List.getElem?_eq_getElem (show c - m.libre < m.listaBloqueados.length by omega)⟩
    refine ⟨hlt, q, hq, ?_⟩
    dsimp only
    rw [if_pos hle, hq]
  · obtain ⟨rfl, rfl⟩ := Op.some_inj h
    exact ⟨rfl, le_rfl, fun _ _ => rfl, by simp⟩

theorem pelea_pelear {f : Fabrica} {peleas : Peleas} {m m' : Estado} (hb : m.batalla = true)
    (hfrescos : ∀ p ∈ m.listaBloqueados, p < m.libre)
    (h : pelear f peleas m = (some ⟨⟩, m')) : Pelea f peleas m m' := by
  obtain ⟨entrenadores, m₁, hcop, _⟩ := Op.of_bind (congrArg Prod.fst h)
  rw [pelear, Op.bind_some hcop, Op.get_bind] at h
  dsimp only [id_eq] at h
  rw [Op.modify_bind] at h
  obtain ⟨x, m₂, hbat, _⟩ := Op.of_bind (congrArg Prod.fst h)
  rw [Op.bind_some hbat] at h
  obtain ⟨_, rfl⟩ := Op.some_inj h
  have hsueltos : sueltos peleas m = entrenadores.filter fun p => !marcado m₁ peleas.basura p := by
    rw [sueltos, if_pos hb, noMarcados, hcop]
    rfl
  have hmarcados : marcados peleas.basura m =
      entrenadores.filter fun p => marcado m₁ peleas.basura p := by
    rw [marcados, hcop]
    rfl
  rw [← hsueltos, ← hmarcados] at hbat
  have hp := peleado_batallas _ hbat
  obtain ⟨hcopias, hlibre, hpcb, horig⟩ := copiarEntrenadores_some hcop
  have hsock : ∀ p < m.libre, m₁.sock p = m.sock p := fun p hp => by
    rw [Estado.sock, hpcb p hp, Estado.sock]
  have hrec : m₁.recursos = m.recursos := by rw [hcopias]
  have hbloq : m₁.listaBloqueados = m.listaBloqueados := by rw [hcopias]
  have hnest : m₁.listaPokenest = m.listaPokenest := by rw [hcopias]
  -- who dies is a copy, with the socket and the resources of the original
  obtain ⟨d, hd, hcae⟩ : ∃ d, caidoDe f peleas.pokemones peleas.cuantas 0
      (marcados peleas.basura m) = d ∧ (d = none ∧ quienCae f peleas m = none ∨
        ∃ c q, d = some c ∧ quienCae f peleas m = some q ∧ m₁.pcb c = m.pcb q) := by
    refine ⟨_, rfl, ?_⟩
    unfold quienCae
    rw [if_pos hb]
    cases hc : caidoDe f peleas.pokemones peleas.cuantas 0 (marcados peleas.basura m) with
    | none => exact .inl ⟨rfl, rfl⟩
    | some c =>
      have hmem := caidoDe_mem _ hc
      rw [hmarcados] at hmem
      obtain ⟨_, q, hq, hpq⟩ := horig c (List.mem_filter.mp hmem).1
      exact .inr ⟨c, q, rfl, hq, hpq⟩
  rw [hd] at hp
  constructor
  · rw [hp.igual]
    change m₁.listaListos ++ sueltos peleas m = _
    rw [hcopias]
  · intro p hps
    rw [hsueltos] at hps
    rw [hp.igual]
    exact (horig p (List.mem_filter.mp hps).1).1
  · intro p hps
    rw [hsueltos] at hps
    rw [hp.igual]
    exact (horig p (List.mem_filter.mp hps).1).2
  · rw [hp.igual]
    exact hlibre
  · intro p hlt
    rw [hp.igual]
    exact hpcb p hlt
  · rw [hp.igual]
    exact hrec
  · rw [hp.listaBloqueados]
    unfold quedanBloqueados
    rcases hcae with ⟨rfl, hq⟩ | ⟨c, q, rfl, hq, hpq⟩
    · rw [hq]
      exact hbloq
    · rw [hq]
      change m₁.listaBloqueados.eraseP (fun p => m₁.sock p = m₁.sock c) = _
      rw [hbloq]
      apply eraseP_congr
      intro p hmem
      have hc : m₁.sock c = m.sock q := by rw [Estado.sock, hpq, Estado.sock]
      rw [hsock p (hfrescos p hmem), hc]
  · rw [hp.listaPokenest]
    rcases hcae with ⟨rfl, hq⟩ | ⟨c, q, rfl, hq, hpq⟩
    · rw [hq]
      exact hnest
    · rw [hq]
      change devolver (m₁.recursos (m₁.pcb c).listaRecursos) m₁.listaPokenest = _
      rw [hpq, hrec, hnest]
      rfl
  · obtain ⟨es, he, hes⟩ := hp.enviados
    refine ⟨es, ?_, ?_⟩
    · rw [he]
      change m₁.enviados ++ es = _
      rw [hcopias]
    · intro k
      rw [hes]
      rcases hcae with ⟨rfl, hq⟩ | ⟨c, q, rfl, hq, hpq⟩
      · rw [hq]
        rfl
      · rw [hq]
        change some (m₁.pcb c).sockfd = some k ↔ _
        rw [hpq]
        rfl

/-- What `liberarBloqueados` does: nobody dies of it. -/
structure Libera (m m' : Estado) : Prop where
  igual : m' = { m with listaBloqueados := m'.listaBloqueados, enviados := m'.enviados }
  listaBloqueados : m'.listaBloqueados ⊆ m.listaBloqueados
  enviados : ∃ es, m'.enviados = m.enviados ++ es ∧ ∀ k, (k, Envio.resultado morite) ∉ es

namespace Libera

theorem refl (m : Estado) : Libera m m := ⟨rfl, fun _ hp => hp, [], by simp, by simp⟩

theorem trans {m m₁ m' : Estado} (h : Libera m m₁) (h' : Libera m₁ m') : Libera m m' := by
  obtain ⟨es, he, hes⟩ := h.enviados
  obtain ⟨es', he', hes'⟩ := h'.enviados
  refine ⟨by rw [h'.igual, h.igual], fun p hp => h.2 (h'.2 hp), es ++ es', ?_, ?_⟩
  · rw [he', he, List.append_assoc]
  · intro k hk
    cases List.mem_append.mp hk with
    | inl hk => exact hes k hk
    | inr hk => exact hes' k hk

theorem desbloqueado (m : Estado) (k : ℤ) {l : List ℕ} (hl : l ⊆ m.listaBloqueados) :
    Libera m { m.enviar k .estasDesbloqueado with listaBloqueados := l } :=
  ⟨rfl, hl, [(k, .estasDesbloqueado)], rfl, by simp⟩

theorem liberarBloqueado (i p : ℕ) (recursos : List Pokenest) :
    Op.Keeps Libera (liberarBloqueado i p recursos) := by
  induction recursos with
  | nil => exact Op.Keeps.pure refl _
  | cons recurso recursos ih =>
    intro m
    unfold Mapa.liberarBloqueado
    split
    · split
      · next l hl =>
        have hsub : l ⊆ m.listaBloqueados := by
          unfold listRemove at hl
          split at hl
          · obtain rfl := Option.some.inj hl
            exact List.nil_subset _
          · split at hl
            · obtain rfl := Option.some.inj hl
              exact fun q hq => List.mem_of_mem_eraseIdx hq
            · cases hl
        exact (desbloqueado m _ hsub).trans (ih _)
      · exact desbloqueado m _ (List.Subset.refl _)
    · exact ih m

theorem liberarDesde (recursos : List Pokenest) (posiciones : List ℕ) :
    Op.Keeps Libera (liberarDesde recursos posiciones) := by
  induction posiciones with
  | nil => exact Op.Keeps.pure refl _
  | cons i posiciones ih =>
    apply Op.Keeps.bind (R := Libera) (fun _ _ _ h h' => h.trans h') (Op.Keeps.get refl _)
    intro entrenador
    cases entrenador with
    | some p =>
      apply Op.Keeps.bind (R := Libera) fun _ _ _ h h' => h.trans h'
      · exact liberarBloqueado i p recursos
      · exact fun _ => ih
    | none =>
      dsimp only
      split
      · exact ih
      · exact Op.Keeps.abort refl

theorem liberarBloqueados : Op.Keeps Libera liberarBloqueados := by
  apply Op.Keeps.bind (R := Libera) (fun _ _ _ h h' => h.trans h') (Op.Keeps.get refl _)
  exact fun m => liberarDesde _ _

end Libera

section Nadie
variable {m : Estado}

theorem liberarBloqueado_nadie {i p : ℕ} {recursos : List Pokenest} (h : ∀ recurso ∈ recursos,
    ¬ ((m.pcb p).proximaPokenest.identificador = recurso.identificador ∧ 1 ≤ recurso.cant)) :
    liberarBloqueado i p recursos m = (some ⟨⟩, m) := by
  induction recursos with
  | nil => rfl
  | cons recurso recursos ih =>
    unfold liberarBloqueado
    rw [if_neg (h recurso (by simp))]
    exact ih fun recurso' hr => h recurso' (by simp [hr])

theorem liberarDesde_nadie {posiciones : List ℕ}
    (h : ∀ p ∈ m.listaBloqueados, m.hayPara p = false)
    (hpos : ∀ i ∈ posiciones, i < m.listaBloqueados.length) :
    liberarDesde m.listaPokenest posiciones m = (some ⟨⟩, m) := by
  induction posiciones with
  | nil => rfl
  | cons i posiciones ih =>
    have hi := List.getElem?_eq_getElem (hpos i (by simp))
    have hno := List.any_eq_false.mp (h _ (List.mem_of_getElem? hi))
    rw [liberarDesde, Op.get_bind, hi]
    dsimp only
    rw [Op.bind_some (liberarBloqueado_nadie fun recurso hr he => hno recurso hr (by simpa using he))]
    exact ih fun j hj => hpos j (by simp [hj])

/-- `liberarBloqueados` where there is nothing for anybody. -/
theorem liberarBloqueados_nadie (h : ∀ p ∈ m.listaBloqueados, m.hayPara p = false) :
    liberarBloqueados m = (some ⟨⟩, m) := by
  rw [liberarBloqueados, Op.get_bind]
  exact liberarDesde_nadie h fun i hi => List.mem_range.mp hi

end Nadie

/-- What comes back does not touch the units of the other species. -/
theorem any_devolver {ids : List UInt8} {id : UInt8} (hid : id ∉ ids) (l : List Pokenest) :
    (devolver ids l).any (fun recurso => id = recurso.identificador ∧ 1 ≤ recurso.cant) =
      l.any fun recurso => id = recurso.identificador ∧ 1 ≤ recurso.cant := by
  have huno : ∀ id' ≠ id, ∀ l : List Pokenest,
      (sumarCant id' 1 l).any (fun recurso => id = recurso.identificador ∧ 1 ≤ recurso.cant) =
        l.any fun recurso => id = recurso.identificador ∧ 1 ≤ recurso.cant := by
    intro id' hne l
    induction l with
    | nil => rfl
    | cons p l ih =>
      rw [sumarCant]
      split
      · next hp =>
        have hno : id ≠ p.identificador := fun he => hne (hp.symm.trans he.symm)
        simp [hno]
      · rw [List.any_cons, List.any_cons, ih]
  induction ids generalizing l with
  | nil => rfl
  | cons id' ids ih =>
    have hne : id' ≠ id := fun he => hid (he ▸ List.mem_cons_self)
    rw [devolver, List.foldl_cons]
    exact (ih (fun h => hid (List.mem_cons_of_mem id' h)) _).trans (huno id' hne l)

structure Deteccion (f : Fabrica) (peleas : Peleas) (m m' : Estado) : Prop where
  listaListos : m'.listaListos = m.listaListos ++ sueltos peleas m
  sueltos : ∀ p ∈ sueltos peleas m, p < m'.libre
  copias : ∀ p ∈ Mapa.sueltos peleas m,
    ∃ q, m.listaBloqueados[p - m.libre]? = some q ∧ m'.pcb p = m.pcb q
  libre : m.libre ≤ m'.libre
  pcb : ∀ p < m.libre, m'.pcb p = m.pcb p
  recursos : m'.recursos = m.recursos
  listaBloqueados : m'.listaBloqueados ⊆ m.listaBloqueados
  listaPokenest : m'.listaPokenest = (quienCae f peleas m).elim m.listaPokenest
    fun c => devolver (m.capturados c) m.listaPokenest
  enviados : ∀ k, (k, Envio.resultado morite) ∈ m'.enviados.drop m.enviados.length ↔
    (quienCae f peleas m).map m.sock = some k
  nadieSigue : (m.listaBloqueados.map m.sock).Nodup → NadieSigue f peleas m →
    m'.listaBloqueados = quedanBloqueados f peleas m

theorem pelea_nada {f : Fabrica} {peleas : Peleas} {m : Estado}
    (h : ¬ (m.listaBloqueados ≠ [] ∧ m.batalla = true)) : Pelea f peleas m m := by
  have hnadie : sueltos peleas m = [] ∧ quienCae f peleas m = none := by
    unfold sueltos quienCae
    cases hb : m.batalla with
    | false => exact ⟨rfl, rfl⟩
    | true =>
      have hvacia : m.listaBloqueados = [] := by
        by_contra hne
        exact h ⟨hne, hb⟩
      have hcop : copiarEntrenadores m = (some [], m) := by
        rw [copiarEntrenadores, if_neg (by simp [hvacia])]
      have hmar : marcados peleas.basura m = [] := by
        rw [marcados, hcop]
        rfl
      have hcae : caidoDe f peleas.pokemones peleas.cuantas 0 [] = none := by
        cases peleas.cuantas <;> rfl
      rw [if_pos rfl, if_pos rfl, noMarcados, hcop, hmar, hcae]
      exact ⟨rfl, rfl⟩
  obtain ⟨hs, hc⟩ := hnadie
  constructor
  · rw [hs, List.append_nil]
  · rw [hs]
    simp
  · rw [hs]
    simp
  · exact le_rfl
  · exact fun _ _ => rfl
  · rfl
  · rw [quedanBloqueados, hc]
    rfl
  · rw [hc]
    rfl
  · exact ⟨[], by simp, by simp [hc]⟩

theorem mem_of_nodup_eraseP {l : List ℕ} {sock : ℕ → ℤ} (hnd : (l.map sock).Nodup) {p : ℕ} {k : ℤ}
    (hp : p ∈ l.eraseP fun q => sock q = k) : sock p ≠ k := by
  induction l with
  | nil => cases hp
  | cons q l ih =>
    rw [List.map_cons, List.nodup_cons] at hnd
    by_cases hq : sock q = k
    · rw [List.eraseP_cons_of_pos (by simpa using hq)] at hp
      intro he
      exact hnd.1 (List.mem_map.mpr ⟨p, hp, he.trans hq.symm⟩)
    · rw [List.eraseP_cons_of_neg (by simpa using hq)] at hp
      cases List.mem_cons.mp hp with
      | inl he => rwa [he]
      | inr hp => exact ih hnd.2 hp

theorem Pelea.deteccion {f : Fabrica} {peleas : Peleas} {m m₁ m' : Estado}
    (hfrescos : ∀ p ∈ m.listaBloqueados, p < m.libre) (hp : Pelea f peleas m m₁)
    (h : liberarBloqueados m₁ = (some ⟨⟩, m')) : Deteccion f peleas m m' := by
  have hl : Libera m₁ m' := by
    have hk := Libera.liberarBloqueados m₁
    rwa [h] at hk
  constructor
  · rw [hl.igual]
    exact hp.listaListos
  · rw [hl.igual]
    exact hp.sueltos
  · rw [hl.igual]
    exact hp.copias
  · rw [hl.igual]
    exact hp.libre
  · rw [hl.igual]
    exact hp.pcb
  · rw [hl.igual]
    exact hp.recursos
  · apply List.Subset.trans hl.listaBloqueados
    rw [hp.listaBloqueados, quedanBloqueados]
    cases quienCae f peleas m with
    | none => exact List.Subset.refl _
    | some c => exact List.eraseP_subset
  · rw [hl.igual]
    exact hp.listaPokenest
  · obtain ⟨es, he, hes⟩ := hp.enviados
    obtain ⟨es', he', hes'⟩ := hl.enviados
    intro k
    rw [he', he, List.append_assoc, List.drop_left, List.mem_append, hes]
    exact or_iff_left (hes' k)
  · intro hnd hnadie
    have hsub : ∀ p ∈ m₁.listaBloqueados, p ∈ m.listaBloqueados ∧
        (quienCae f peleas m).map m.sock ≠ some (m.sock p) := by
      rw [hp.listaBloqueados, quedanBloqueados]
      intro p hmem
      cases hc : quienCae f peleas m with
      | none =>
        rw [hc] at hmem
        exact ⟨hmem, by simp⟩
      | some c =>
        rw [hc] at hmem
        refine ⟨List.mem_of_mem_eraseP hmem, ?_⟩
        intro he
        exact mem_of_nodup_eraseP hnd hmem (Option.some.inj he).symm
    have hquietos : ∀ p ∈ m₁.listaBloqueados, m₁.hayPara p = false := by
      intro p hmem
      obtain ⟨hmem, hne⟩ := hsub p hmem
      obtain ⟨hno, hcae⟩ := hnadie p hmem hne
      rw [← hno, Estado.hayPara, Estado.hayPara, hp.pcb p (hfrescos p hmem), hp.listaPokenest]
      cases hc : quienCae f peleas m with
      | none => rfl
      | some c => exact any_devolver (hcae c hc) _
    rw [liberarBloqueados_nadie hquietos] at h
    rw [← (Op.some_inj h).2, hp.listaBloqueados]

theorem deteccion_detectarDeadLock {f : Fabrica} {peleas : Peleas} {m m' : Estado}
    (hfrescos : ∀ p ∈ m.listaBloqueados, p < m.libre)
    (h : detectarDeadLock f peleas m = (some ⟨⟩, m')) : Deteccion f peleas m m' := by
  rw [detectarDeadLock, Op.get_bind] at h
  dsimp only [id_eq] at h
  split at h
  · next hb =>
    obtain ⟨_, m₁, hpel, _⟩ := Op.of_bind (congrArg Prod.fst h)
    rw [Op.bind_some hpel] at h
    exact (pelea_pelear hb.2 hfrescos hpel).deteccion hfrescos h
  · next hb => exact (pelea_nada hb).deteccion hfrescos h

end TpSo.Mapa
