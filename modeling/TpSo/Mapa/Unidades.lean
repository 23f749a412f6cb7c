import TpSo.Mapa.Listas

/-!
# The units of the pokenests

A unit is in its pokenest or with a trainer that plays. A capture takes it out before the trainer
acknowledges it, and a message that breaks off takes the trainer out with all it holds. `Contada` is
the invariant of the runs in which neither happens, and in which the `t_pcb` that the map finds is
one of the trainer that plays.
-/

namespace TpSo.Mapa

open Function (update)

/-! ## The units in a list of pokenests -/

/-- The units of the pokenest that `list_find` gives for the identifier. A second pokenest with it,
as a reload adds one, is never found, and no unit leaves it or comes to it. -/
def cantDe (l : List Pokenest) (id : UInt8) : ℤ :=
  ((l.find? fun p => p.identificador = id).map Pokenest.cant).getD 0

section CantDe
variable {l : List Pokenest} {id : UInt8}

theorem cantDe_cons (p : Pokenest) (l : List Pokenest) (id : UInt8) :
    cantDe (p :: l) id = if p.identificador = id then p.cant else cantDe l id := by
  unfold cantDe
  by_cases h : p.identificador = id <;> simp [h]

theorem cantDe_of_not_mem (h : id ∉ l.map Pokenest.identificador) : cantDe l id = 0 := by
  have hnone : (l.find? fun p => p.identificador = id) = none := by
    rw [List.find?_eq_none]
    intro p hp
    rw [decide_eq_true_iff]
    exact fun hid => h (List.mem_map.mpr ⟨p, hp, hid⟩)
  rw [cantDe, hnone]
  rfl

theorem cantDe_append (l' : List Pokenest) (h : id ∈ l.map Pokenest.identificador) :
    cantDe (l ++ l') id = cantDe l id := by
  obtain ⟨p, hp, hid⟩ := List.mem_map.mp h
  have hsome : (l.find? fun p => p.identificador = id).isSome = true :=
    List.find?_isSome.mpr ⟨p, hp, by simpa using hid⟩
  unfold cantDe
  rw [List.find?_append, Option.or_of_isSome hsome]

theorem cantDe_sumarCant (id' : UInt8) (k : ℤ) (h : id ∈ l.map Pokenest.identificador) :
    cantDe (sumarCant id' k l) id = cantDe l id + if id' = id then k else 0 := by
  induction l with
  | nil => cases h
  | cons p l ih =>
    unfold sumarCant
    by_cases hp : p.identificador = id
    · split
      · next hp' =>
        rw [cantDe_cons, cantDe_cons, if_pos hp, if_pos hp, if_pos (hp'.symm.trans hp)]
      · next hp' =>
        have hne : id' ≠ id := fun he => hp' (hp.trans he.symm)
        rw [cantDe_cons, cantDe_cons, if_pos hp, if_pos hp, if_neg hne, add_zero]
    · have hl : id ∈ l.map Pokenest.identificador := by
        rw [List.map_cons] at h
        exact (List.mem_cons.mp h).resolve_left fun he => hp he.symm
      split
      · next hp' =>
        have hne : id' ≠ id := fun he => hp (hp'.trans he)
        rw [cantDe_cons, cantDe_cons, if_neg hp, if_neg hp, if_neg hne, add_zero]
      · rw [cantDe_cons, cantDe_cons, if_neg hp, if_neg hp, ih hl]

theorem cantDe_devolver (ids : List UInt8) (h : id ∈ l.map Pokenest.identificador) :
    cantDe (devolver ids l) id = cantDe l id + ids.count id := by
  induction ids generalizing l with
  | nil => simp [devolver]
  | cons id' ids ih =>
    have hl : id ∈ (sumarCant id' 1 l).map Pokenest.identificador := by
      rwa [identificadores_sumarCant]
    rw [devolver, List.foldl_cons]
    refine (ih hl).trans ?_
    rw [cantDe_sumarCant id' 1 h, List.count_cons]
    by_cases hid : id' = id
    · rw [if_pos hid, if_pos (by simpa using hid)]
      omega
    · rw [if_neg hid, if_neg (by simpa using hid)]
      omega

end CantDe

/-! ## Who holds what -/

namespace Partida

variable (s : Partida)

def unidades (id : UInt8) : ℤ := cantDe s.mapa.listaPokenest id

def identificadores : List UInt8 := s.mapa.listaPokenest.map Pokenest.identificador

def enManos : List UInt8 := s.jugando.flatMap s.mapa.capturados

def retenidos (sockfd : ℤ) : List UInt8 :=
  (s.jugando.filter fun p => s.mapa.sock p = sockfd).flatMap s.mapa.capturados

/-- Of every pokenest the units are there that it was loaded with, in it or with a trainer. -/
def Completas (inicial : UInt8 → ℤ) : Prop := ∀ id ∈ s.identificadores,
  s.unidades id + s.enManos.count id = inicial id

/-- A trainer that leaves gives back every unit that it has, once. -/
def Devuelven (s' : Partida) : Prop := ∀ p ∈ s.jugando, p ∉ s'.jugando →
  ∀ id, s'.unidades id = s.unidades id + (s.mapa.capturados p).count id

/-- A capture that gives a unit is acknowledged, and goes to the resources of a trainer that plays. A
message breaks off only if the trainer holds nothing. When it finishes or is found disconnected, the
`t_pcb` that the map finds holds what it holds. -/
def MensajeEnRegla (r : Recibido) (sockfd : ℤ) : Prop :=
  (r.tipoMensaje = 3 → ∀ id ∈ r.pokemon, s.mapa.hayUnidad id = true → r.acuse = true ∧
    ∀ q ∈ s.mapa.getPcbBySockFdListos sockfd, s.mapa.lista q ∈ s.jugando) ∧
  (r.tipoMensaje = 1 ∨ r.tipoMensaje = 2 ∨ r.tipoMensaje = 3 →
    r.seVa s.mapa.toAlmacen = true → s.retenidos sockfd = []) ∧
  (¬ (r.tipoMensaje = 1 ∨ r.tipoMensaje = 2 ∨ r.tipoMensaje = 3) →
    ∀ q ∈ s.mapa.getPcbBySockFdListos sockfd, (s.mapa.capturados q).Perm (s.retenidos sockfd))

instance (r : Recibido) (sockfd : ℤ) : Decidable (s.MensajeEnRegla r sockfd) :=
  inferInstanceAs (Decidable (_ ∧ _ ∧ _))

/-- The same for the trainer that dies in a battle. -/
def EnRegla (f : Fabrica) : Evento → Prop
  | .atiende r => ∀ p ∈ s.turno.de, s.MensajeEnRegla r (s.mapa.sock p)
  | .detecta peleas => ∀ c ∈ quienCae f peleas s.mapa,
      (s.mapa.capturados c).Perm (s.retenidos (s.mapa.sock c))
  | _ => True

instance (f : Fabrica) : ∀ e : Evento, Decidable (s.EnRegla f e)
  | .atiende _ => inferInstanceAs (Decidable (∀ p ∈ s.turno.de, _))
  | .detecta peleas => inferInstanceAs (Decidable (∀ c ∈ quienCae f peleas s.mapa, _))
  | .conecta _ _ _ => .isTrue trivial
  | .empieza => .isTrue trivial
  | .termina => .isTrue trivial
  | .recarga => .isTrue trivial

end Partida

/-! ## The invariant -/

/-- Every trainer that plays has resources of its own, and nobody has a unit of no pokenest. -/
structure Contada (s : Partida) (inicial : UInt8 → ℤ) : Prop extends Fresca s where
  propias : ∀ p ∈ s.jugando, s.mapa.lista p = p
  conocidas : ∀ id ∈ s.enManos, id ∈ s.identificadores
  completas : s.Completas inicial

section Retenidos
variable {s : Partida}

/-- What somebody holds is of those with some socket or of the others. -/
theorem retenidos_perm (s : Partida) (k : ℤ) :
    (s.retenidos k ++ (s.sinSocket k).flatMap s.mapa.capturados).Perm s.enManos := by
  have hperm := List.filter_append_perm (fun p => decide (s.mapa.sock p = k)) s.jugando
  have hsin : s.sinSocket k = s.jugando.filter fun p => !decide (s.mapa.sock p = k) := by
    unfold Partida.sinSocket
    congr 1
    funext p
    simp
  unfold Partida.retenidos Partida.enManos
  rw [hsin, ← List.flatMap_append]
  exact hperm.flatMap_right _

theorem filter_sock {l : List ℕ} {sock : ℕ → ℤ} (hnd : (l.map sock).Nodup) {p : ℕ} (hp : p ∈ l) :
    (l.filter fun q => sock q = sock p) = [p] := by
  induction l with
  | nil => cases hp
  | cons q l ih =>
    rw [List.map_cons, List.nodup_cons] at hnd
    by_cases hpq : p = q
    · subst hpq
      have hresto : (l.filter fun q => sock q = sock p) = [] := by
        rw [List.filter_eq_nil_iff]
        intro r hr hsock
        exact hnd.1 (List.mem_map.mpr ⟨r, hr, of_decide_eq_true hsock⟩)
      rw [List.filter_cons_of_pos (by simp), hresto]
    · have hl := (List.mem_cons.mp hp).resolve_left hpq
      have hne : sock q ≠ sock p := fun he => hnd.1 (List.mem_map.mpr ⟨p, hl, he.symm⟩)
      rw [List.filter_cons_of_neg (by simpa using hne), ih hnd.2 hl]

theorem retenidos_eq (h : s.presentes.Nodup) {p : ℕ} (hp : p ∈ s.jugando) :
    s.retenidos (s.mapa.sock p) = s.mapa.capturados p := by
  rw [Partida.retenidos, filter_sock h hp, List.flatMap_singleton]

end Retenidos

theorem flatMap_perm_cons {l : List ℕ} {f g : ℕ → List UInt8} {a : ℕ} {x : UInt8} (hnd : l.Nodup)
    (ha : a ∈ l) (hotros : ∀ p ∈ l, p ≠ a → g p = f p) (huno : g a = f a ++ [x]) :
    (l.flatMap g).Perm (x :: l.flatMap f) := by
  induction l with
  | nil => cases ha
  | cons p l ih =>
    rw [List.nodup_cons] at hnd
    rw [List.flatMap_cons, List.flatMap_cons]
    by_cases hpa : p = a
    · subst hpa
      have hresto : l.flatMap g = l.flatMap f :=
        List.flatMap_congr fun r hr => hotros r (by simp [hr]) fun he => hnd.1 (he ▸ hr)
      rw [huno, hresto, List.append_assoc]
      exact List.perm_middle
    · have hl := (List.mem_cons.mp ha).resolve_left fun he => hpa he.symm
      rw [hotros p (by simp) hpa]
      have hperm := ih hnd.2 hl fun r hr => hotros r (List.mem_cons_of_mem _ hr)
      exact (hperm.append_left _).trans List.perm_middle

structure Sigue (s : Partida) (inicial : UInt8 → ℤ) (s' : Partida) : Prop where
  fresca : Fresca s'
  propias : ∀ p ∈ s'.jugando, s'.mapa.lista p = p
  conocidas : ∀ id ∈ s'.enManos, id ∈ s.identificadores
  conserva : ∀ id ∈ s.identificadores, id ∈ s'.identificadores
  completas : ∀ id ∈ s.identificadores, s'.unidades id + s'.enManos.count id = inicial id
  devuelven : s.Devuelven s'

namespace Contada
variable {s : Partida} {inicial : UInt8 → ℤ} {m' : Estado} {t : Turno}

theorem capturados_eq {p : ℕ} (hlista : m'.lista p = s.mapa.lista p)
    (hrec : m'.recursos = s.mapa.recursos) : m'.capturados p = s.mapa.capturados p := by
  unfold Estado.capturados
  rw [hlista, hrec]

/-- Those with a socket leave, and what they have is back in the pokenests. -/
theorem sale {k : ℤ} (h : Contada s inicial) (hfresca : Fresca ⟨⟨m', t⟩, s.sinSocket k⟩)
    (hlista : ∀ p ∈ s.jugando, m'.lista p = s.mapa.lista p) (hrec : m'.recursos = s.mapa.recursos)
    (hids : m'.listaPokenest.map Pokenest.identificador = s.identificadores)
    (hcant : ∀ id ∈ s.identificadores,
      cantDe m'.listaPokenest id = s.unidades id + (s.retenidos k).count id) :
    Sigue s inicial ⟨⟨m', t⟩, s.sinSocket k⟩ := by
  have hquedan : (s.sinSocket k).Sublist s.jugando := List.filter_sublist
  have hmanos : Partida.enManos ⟨⟨m', t⟩, s.sinSocket k⟩ =
      (s.sinSocket k).flatMap s.mapa.capturados :=
    List.flatMap_congr fun p hp => capturados_eq (hlista p (hquedan.subset hp)) hrec
  have hperm := retenidos_perm s k
  have hcuenta : ∀ id, (s.retenidos k).count id +
      ((s.sinSocket k).flatMap s.mapa.capturados).count id = s.enManos.count id := by
    intro id
    rw [← List.count_append, hperm.count_eq]
  constructor
  · exact hfresca
  · exact fun p hp => (hlista p (hquedan.subset hp)).trans (h.propias p (hquedan.subset hp))
  · intro id hid
    rw [hmanos] at hid
    exact h.conocidas id (hperm.subset (List.mem_append_right _ hid))
  · intro id hid
    change id ∈ m'.listaPokenest.map Pokenest.identificador
    rwa [hids]
  · intro id hid
    have hsaldo := h.completas id hid
    change cantDe m'.listaPokenest id + _ = _
    rw [hcant id hid, hmanos]
    have hid' := hcuenta id
    omega
  · intro p hp hno id
    have hsock : s.mapa.sock p = k := by
      by_contra hne
      exact hno (List.mem_filter.mpr ⟨hp, by simpa using hne⟩)
    subst hsock
    change cantDe m'.listaPokenest id = _
    by_cases hid : id ∈ s.identificadores
    · rw [hcant id hid, retenidos_eq h.distintos hp]
    · -- nobody has what no pokenest has
      have hnadie : id ∉ s.mapa.capturados p := fun hmem =>
        hid (h.conocidas id (List.mem_flatMap.mpr ⟨p, hp, hmem⟩))
      rw [cantDe_of_not_mem (hids ▸ hid), Partida.unidades, cantDe_of_not_mem hid,
        List.count_eq_zero.mpr hnadie]
      rfl

/-- Nobody leaves and nothing is captured; there may be more pokenests. -/
theorem igual {nuevas : List Pokenest} (h : Contada s inicial)
    (hfresca : Fresca ⟨⟨m', t⟩, s.jugando⟩) (hlista : ∀ p ∈ s.jugando, m'.lista p = s.mapa.lista p)
    (hrec : m'.recursos = s.mapa.recursos)
    (hnest : m'.listaPokenest = s.mapa.listaPokenest ++ nuevas) :
    Sigue s inicial ⟨⟨m', t⟩, s.jugando⟩ := by
  have hmanos : Partida.enManos ⟨⟨m', t⟩, s.jugando⟩ = s.enManos :=
    List.flatMap_congr fun p hp => capturados_eq (hlista p hp) hrec
  constructor
  · exact hfresca
  · exact fun p hp => (hlista p hp).trans (h.propias p hp)
  · rw [hmanos]
    exact h.conocidas
  · intro id hid
    change id ∈ m'.listaPokenest.map Pokenest.identificador
    rw [hnest, List.map_append]
    exact List.mem_append_left _ hid
  · intro id hid
    change cantDe m'.listaPokenest id + _ = _
    rw [hmanos, hnest, cantDe_append nuevas hid]
    exact h.completas id hid
  · exact fun p hp hno => absurd hp hno

theorem captura {q : ℕ} {id : UInt8} (h : Contada s inicial)
    (hfresca : Fresca ⟨⟨m', t⟩, s.jugando⟩) (hay : s.mapa.hayUnidad id = true)
    (hq : s.mapa.lista q ∈ s.jugando) (hlista : m'.lista = s.mapa.lista)
    (hrec : m'.recursos = update s.mapa.recursos (s.mapa.lista q) (s.mapa.capturados q ++ [id]))
    (hnest : m'.listaPokenest = sumarCant id (-1) s.mapa.listaPokenest) :
    Sigue s inicial ⟨⟨m', t⟩, s.jugando⟩ := by
  have hlistaq := h.propias _ hq
  have hmanos : (Partida.enManos ⟨⟨m', t⟩, s.jugando⟩).Perm (id :: s.enManos) := by
    apply flatMap_perm_cons (List.Nodup.of_map _ h.distintos) hq
    · intro p hp hne
      change m'.recursos (m'.lista p) = s.mapa.recursos (s.mapa.lista p)
      rw [hlista, hrec, Function.update_of_ne]
      rwa [h.propias p hp]
    · change m'.recursos (m'.lista (s.mapa.lista q)) =
        s.mapa.recursos (s.mapa.lista (s.mapa.lista q)) ++ [id]
      rw [hlista, hrec, hlistaq, Function.update_self]
      rfl
  have hid : id ∈ s.identificadores := by
    cases hget : s.mapa.getPokenestById id with
    | none =>
      rw [Almacen.hayUnidad, hget] at hay
      cases hay
    | some p =>
      rw [Almacen.hayUnidad, hget, Option.any_some, decide_eq_true_iff] at hay
      exact List.mem_map.mpr ⟨p, Almacen.mem_of_getPokenestById hget, hay.1⟩
  constructor
  · exact hfresca
  · intro p hp
    change m'.lista p = p
    rw [hlista]
    exact h.propias p hp
  · intro id' hid'
    cases List.mem_cons.mp (hmanos.subset hid') with
    | inl he => exact he ▸ hid
    | inr hmem => exact h.conocidas id' hmem
  · intro id' hid'
    change id' ∈ m'.listaPokenest.map Pokenest.identificador
    rwa [hnest, identificadores_sumarCant]
  · intro id' hid'
    have hsaldo := h.completas id' hid'
    unfold Partida.unidades at hsaldo
    change cantDe m'.listaPokenest id' + _ = _
    rw [hnest, cantDe_sumarCant id (-1) hid', hmanos.count_eq, List.count_cons]
    by_cases hsame : id = id'
    · rw [if_pos hsame, if_pos (by simpa using hsame)]
      push_cast
      omega
    · rw [if_neg hsame, if_neg (by simpa using hsame)]
      push_cast
      omega
  · exact fun p hp hno => absurd hp hno

theorem conecta {sockfd : ℤ} (h : Contada s inicial) (hc : Conectado s.mapa sockfd m')
    (hfresca : Fresca ⟨⟨m', s.turno⟩, s.mapa.libre :: s.jugando⟩) :
    Sigue s inicial ⟨⟨m', s.turno⟩, s.mapa.libre :: s.jugando⟩ := by
  have hlista : ∀ p ∈ s.jugando, m'.lista p = s.mapa.lista p := fun p hp =>
    congrArg Pcb.listaRecursos (hc.pcb p (h.jugando p hp))
  have hcapturados : ∀ p ∈ s.jugando, m'.capturados p = s.mapa.capturados p := by
    intro p hp
    unfold Estado.capturados
    have hpropia := h.propias p hp
    rw [hlista p hp, hc.recursos, Function.update_of_ne]
    rw [hpropia]
    exact (h.jugando p hp).ne
  have hmanos : Partida.enManos ⟨⟨m', s.turno⟩, s.mapa.libre :: s.jugando⟩ = s.enManos := by
    have hnuevo : m'.capturados s.mapa.libre = [] := by
      unfold Estado.capturados
      rw [hc.lista, hc.recursos, Function.update_self]
    change (s.mapa.libre :: s.jugando).flatMap m'.capturados = _
    rw [List.flatMap_cons, hnuevo, List.nil_append]
    exact List.flatMap_congr hcapturados
  have hunidades : Partida.unidades ⟨⟨m', s.turno⟩, s.mapa.libre :: s.jugando⟩ = s.unidades := by
    funext id
    exact congrArg (cantDe · id) hc.listaPokenest
  constructor
  · exact hfresca
  · exact List.forall_mem_cons.mpr ⟨hc.lista, fun p hp => (hlista p hp).trans (h.propias p hp)⟩
  · rw [hmanos]
    exact h.conocidas
  · intro id hid
    change id ∈ m'.listaPokenest.map Pokenest.identificador
    rwa [hc.listaPokenest]
  · rw [hunidades, hmanos]
    exact h.completas
  · exact fun p hp hno => absurd (List.mem_cons_of_mem _ hp) hno

theorem mensaje {r : Recibido} {p : ℕ} {k : ℤ} {m₁ : Estado} (h : Contada s inicial)
    (hregla : s.MensajeEnRegla r (s.mapa.sock p)) (hm : Movida s.mapa (s.mapa.sock p) r k m₁)
    (hi : Inmovil m₁ m') (hrec : m'.recursos = m₁.recursos)
    (hnest : m'.listaPokenest = m₁.listaPokenest) (hfresca : Fresca ⟨⟨m', t⟩, s.quedan r p⟩) :
    Sigue s inicial ⟨⟨m', t⟩, s.quedan r p⟩ := by
  obtain ⟨hcaptura, hcorte, hdespedida⟩ := hregla
  have hsale : r.seVa s.mapa.toAlmacen = true → s.quedan r p = s.sinSocket (s.mapa.sock p) :=
    fun hva => if_pos hva
  cases hm with
  | sigue _ hva hi₁ hrec₁ hnest₁ =>
    rw [quedan_sigue hva] at hfresca ⊢
    have hlista := hi.lista.trans hi₁.lista
    exact h.igual hfresca (fun q _ => congrFun hlista q) (hrec.trans hrec₁)
      ((hnest.trans hnest₁).trans (List.append_nil _).symm)
  | @captura _ q id ht hpok hay hacuse hq hi₁ hrec₁ hnest₁ =>
    have hva : r.seVa s.mapa.toAlmacen = false := by simp [Recibido.seVa, ht, hpok, hacuse]
    rw [quedan_sigue hva] at hfresca ⊢
    exact h.captura hfresca hay ((hcaptura ht id hpok hay).2 q hq) (hi.lista.trans hi₁.lista)
      (hrec.trans hrec₁) (hnest.trans hnest₁)
  | bloqueado _ hva _ =>
    rw [quedan_sigue hva] at hfresca ⊢
    exact h.igual hfresca (fun q _ => congrFun hi.lista q) hrec
      (hnest.trans (List.append_nil _).symm)
  | cortado hr =>
    have htipo : r.tipoMensaje = 1 ∨ r.tipoMensaje = 2 ∨ r.tipoMensaje = 3 :=
      hr.imp And.left (Or.imp And.left And.left)
    have hva : r.seVa s.mapa.toAlmacen = true := by
      rcases hr with ⟨ht, hr⟩ | ⟨ht, hr⟩ | ⟨ht, hr⟩ <;> simp [Recibido.seVa, ht, hr]
    rw [hsale hva] at hfresca ⊢
    apply h.sale hfresca (fun q _ => congrFun hi.lista q) hrec (congrArg _ hnest)
    intro id _
    rw [hnest, hcorte htipo hva]
    exact (add_zero _).symm
  | perdida ht hpok hay hacuse _ _ _ =>
    rw [(hcaptura ht _ hpok hay).1] at hacuse
    cases hacuse
  | @despedido m₂ q h1 h2 h3 hq hi₁ hrec₁ hnest₁ =>
    have hva : r.seVa s.mapa.toAlmacen = true := by simp [Recibido.seVa, h1, h2, h3]
    rw [hsale hva] at hfresca ⊢
    have hlista : m'.lista = s.mapa.lista := hi.lista.trans hi₁.lista
    have hdevuelve : m'.listaPokenest = devolver (s.mapa.capturados q) s.mapa.listaPokenest :=
      hnest.trans hnest₁
    have hsuyo := hdespedida (by simp [h1, h2, h3]) q hq
    apply h.sale hfresca (fun q _ => congrFun hlista q) (hrec.trans hrec₁)
    · rw [hdevuelve]
      exact identificadores_devolver _ _
    · intro id hid
      rw [hdevuelve, cantDe_devolver _ hid, hsuyo.count_eq]
      rfl

theorem detecta {f : Fabrica} {peleas : Peleas} (h : Contada s inicial)
    (hregla : s.EnRegla f (.detecta peleas)) (hd : Deteccion f peleas s.mapa m')
    (hfresca : Fresca ⟨⟨m', s.turno⟩, s.siguen m' (.detecta peleas)⟩) :
    Sigue s inicial ⟨⟨m', s.turno⟩, s.siguen m' (.detecta peleas)⟩ := by
  have hlista : ∀ p ∈ s.jugando, m'.lista p = s.mapa.lista p := fun p hp =>
    congrArg Pcb.listaRecursos (hd.pcb p (h.jugando p hp))
  have hnest := hd.listaPokenest
  rw [siguen_detecta hd] at hfresca ⊢
  cases hc : quienCae f peleas s.mapa with
  | none =>
    rw [hc] at hfresca hnest
    exact h.igual hfresca hlista hd.recursos (hnest.trans (List.append_nil _).symm)
  | some c =>
    rw [hc] at hfresca hnest
    simp only [Option.elim_some] at hfresca hnest ⊢
    apply h.sale hfresca hlista hd.recursos
    · rw [hnest]
      exact identificadores_devolver _ _
    · intro id hid
      rw [hnest, cantDe_devolver _ hid, (hregla c hc).count_eq]
      rfl

theorem jugada {f : Fabrica} {s' : Partida} {e : Evento} (h : Contada s inicial)
    (hadmite : s.Admite e) (hregla : s.EnRegla f e) (hj : Jugada f s e s') :
    Sigue s inicial s' := by
  have hfresca := h.toFresca.jugada hadmite hj
  cases hj with
  | conecta he => exact h.conecta (conectado_nuevoEntrenadorConectado he) hfresca
  | empieza _ _ => exact h.igual hfresca (fun _ _ => rfl) rfl (List.append_nil _).symm
  | elige _ _ => exact h.igual hfresca (fun _ _ => rfl) rfl (List.append_nil _).symm
  | @atiende r p n k m' ht hm =>
    have hp : p ∈ s.turno.de := by rw [ht]; rfl
    exact h.mensaje (hregla p hp) hm (.refl m') rfl rfl hfresca
  | @atiendeElegido r p segundo k m₁ m' t ht hm hi hrec hnest _ =>
    have hp : p ∈ s.turno.de := by rw [ht]; rfl
    exact h.mensaje (hregla p hp) hm hi hrec hnest hfresca
  | @termina p k ht =>
    obtain ⟨l, hl⟩ := finDeTurno_lista p k s.mapa
    rw [hl] at hfresca ⊢
    exact h.igual hfresca (fun _ _ => rfl) rfl (List.append_nil _).symm
  | detecta he => exact h.detecta hregla (deteccion_detectarDeadLock h.bloqueados he) hfresca
  | recarga => exact h.igual hfresca (fun _ _ => rfl) rfl rfl

end Contada

/-! ## Whole runs -/

/-- The units that the pokenests of `s'` were loaded with, those that are new in it too. -/
def Partida.cargadas (s : Partida) (inicial : UInt8 → ℤ) (s' : Partida) : UInt8 → ℤ := fun id =>
  if id ∈ s.identificadores then inicial id else s'.unidades id

/-- A step by the rules, with the units that the pokenests were loaded with. -/
def PasoEnRegla (f : Fabrica) (c : Partida × (UInt8 → ℤ)) (e : Ajustes × Evento)
    (c' : Partida × (UInt8 → ℤ)) : Prop :=
  PasoPartida f c.1 e c'.1 ∧ (c.1.ajustar e.1).EnRegla f e.2 ∧ c'.2 = c.1.cargadas c.2 c'.1

theorem Contada.comienza {s : Partida} (h : s.Comienza) : Contada s s.unidades := by
  have hmanos : s.enManos = [] := by rw [Partida.enManos, h.jugando, List.flatMap_nil]
  refine ⟨.comienza h, ?_, ?_, ?_⟩
  · simp [h.jugando]
  · simp [hmanos]
  · intro id _
    rw [hmanos, List.count_nil]
    exact add_zero _

theorem Contada.sigue {f : Fabrica} {c c' : Partida × (UInt8 → ℤ)} {e : Ajustes × Evento}
    (h : Contada c.1 c.2) (hpaso : PasoEnRegla f c e c') : Sigue c.1 c.2 c'.1 := by
  obtain ⟨⟨hstep, hadmite⟩, hregla, _⟩ := hpaso
  have hajustada : Contada (c.1.ajustar e.1) c.2 :=
    ⟨h.toFresca.ajustar e.1, h.propias, h.conocidas, h.completas⟩
  obtain ⟨hfresca, hpropias, hconocidas, hconserva, hcompletas, hdevuelven⟩ :=
    hajustada.jugada (hadmite.ajustar e.1) hregla (Partida.avanzar_jugada hstep)
  exact ⟨hfresca, hpropias, hconocidas, hconserva, hcompletas, hdevuelven⟩

theorem Contada.paso {f : Fabrica} {c c' : Partida × (UInt8 → ℤ)} {e : Ajustes × Evento}
    (h : Contada c.1 c.2) (hpaso : PasoEnRegla f c e c') : Contada c'.1 c'.2 := by
  have hsigue := h.sigue hpaso
  refine ⟨hsigue.fresca, hsigue.propias, ?_, ?_⟩
  · exact fun id hid => hsigue.conserva id (hsigue.conocidas id hid)
  · intro id _
    rw [hpaso.2.2, Partida.cargadas]
    split
    · next hid => exact hsigue.completas id hid
    · next hid =>
      -- nobody has a unit of a pokenest that has just been loaded
      have hnadie : id ∉ c'.1.enManos := fun hmem => hid (hsigue.conocidas id hmem)
      rw [List.count_eq_zero.mpr hnadie]
      exact add_zero _

theorem run_con_cargadas {f : Fabrica} {s s' : Partida} {es : List (Ajustes × Evento)}
    (h : Run (fun s e s' => PasoPartida f s e s' ∧ (s.ajustar e.1).EnRegla f e.2) s es s')
    (inicial : UInt8 → ℤ) : ∃ inicial', Run (PasoEnRegla f) (s, inicial) es (s', inicial') := by
  induction h generalizing inicial with
  | nil s => exact ⟨inicial, .nil _⟩
  | @cons s s₁ _ e es hpaso _ ih =>
    obtain ⟨inicial', hrun⟩ := ih (s.cargadas inicial s₁)
    have hregla : PasoEnRegla f (s, inicial) e (s₁, s.cargadas inicial s₁) :=
      ⟨hpaso.1, hpaso.2, rfl⟩
    exact ⟨inicial', .cons hregla hrun⟩

end TpSo.Mapa
