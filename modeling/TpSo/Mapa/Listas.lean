import TpSo.Mapa.Desbloqueo
import TpSo.Mapa.Partida

/-!
# The two lists

A trainer that plays is ready or blocked. The turn takes out of `listaListos` the trainer that a
message has put in `listaBloqueados`, in `roundRobinAlgorithm` and not in `srdfAlgorithm`, and
nobody puts back the one that `liberarBloqueados` takes out. `Ordenada` is the invariant of the runs
in which neither matters.
-/

namespace TpSo.Mapa

open Entrenador (morite)

/-- The trainer that the end of the turn takes out of `listaListos`. -/
def Turno.saliente : Turno → Option ℕ
  | .agotado p k => if k = 1 then some p else none
  | _ => none

def Turno.esElegido : Turno → Bool
  | .elegido _ _ => true
  | _ => false

namespace Partida

variable (s : Partida)

/-- Every trainer that plays is once in one of the two lists, and nobody else is in them. -/
def EnUnaLista : Prop := s.presentes.Nodup ∧
  ∀ k : ℤ, s.listos.count k + s.bloqueados.count k = if k ∈ s.presentes then 1 else 0

/-- The socket of the trainer whose turn is about to end is not given to another one; in
`srdfAlgorithm` nobody blocks and no connection is found closed inside a message; the blocked trainer
that becomes ready, if there is one, is the one that is let go. -/
def EnOrden (f : Fabrica) : Evento → Prop
  | .conecta sockfd _ _ => s.turno.saliente.map s.mapa.sock ≠ some sockfd
  | .atiende r => s.turno.esElegido = true → r.seBloquea s.mapa.toAlmacen = false ∧
      (r.tipoMensaje = 1 ∨ r.tipoMensaje = 2 ∨ r.tipoMensaje = 3 → r.seVa s.mapa.toAlmacen = false)
  | .detecta peleas => sueltos peleas s.mapa = [] ∧ NadieSigue f peleas s.mapa ∨
      PasaElMismo f peleas s.mapa
  | _ => True

instance (f : Fabrica) : ∀ e : Evento, Decidable (s.EnOrden f e)
  | .conecta _ _ _ => inferInstanceAs (Decidable (_ ≠ _))
  | .atiende _ => inferInstanceAs (Decidable (_ → _ ∧ _))
  | .detecta _ => inferInstanceAs (Decidable (_ ∧ _ ∨ _))
  | .empieza => .isTrue trivial
  | .termina => .isTrue trivial
  | .recarga => .isTrue trivial

end Partida

/-! ## The one that is let go -/

section Pasa
variable {f : Fabrica} {peleas : Peleas} {m m' : Estado}

theorem map_filterMap_of_some {α β γ : Type} {l : List α} {g : α → Option β} {h : α → γ}
    {k : β → γ} (hl : ∀ x ∈ l, ∃ y, g x = some y ∧ h x = k y) :
    l.map h = (l.filterMap g).map k := by
  induction l with
  | nil => rfl
  | cons x l ih =>
    obtain ⟨y, hy, hxy⟩ := hl x List.mem_cons_self
    rw [List.filterMap_cons_some hy, List.map_cons, List.map_cons, hxy,
      ih fun z hz => hl z (List.mem_cons_of_mem x hz)]

theorem sock_sueltos (h : Deteccion f peleas m m') :
    (sueltos peleas m).map m'.sock = (originales peleas m).map m.sock := by
  apply map_filterMap_of_some
  intro p hp
  obtain ⟨q, hq, hpcb⟩ := h.copias p hp
  exact ⟨q, hq, congrArg Pcb.sockfd hpcb⟩

/-- Where nobody before the last of them can go, those that can do. -/
theorem listaBloqueados_pasa (hfrescos : ∀ p ∈ m.listaBloqueados, p < m.libre)
    (hids : (m.listaPokenest.map Pokenest.identificador).Nodup)
    (hantes : ∀ p ∈ (quedanBloqueados f peleas m).dropLast, hayLuego f peleas m p = false)
    (h : detectarDeadLock f peleas m = (some ⟨⟩, m')) :
    m'.listaBloqueados = (quedanBloqueados f peleas m).filter fun p => !hayLuego f peleas m p := by
  obtain ⟨m₁, hp, hlib⟩ : ∃ m₁, Pelea f peleas m m₁ ∧ liberarBloqueados m₁ = (some ⟨⟩, m') := by
    rw [detectarDeadLock, Op.get_bind] at h
    dsimp only [id_eq] at h
    split at h
    · next hb =>
      obtain ⟨_, m₁, hpel, _⟩ := Op.of_bind (congrArg Prod.fst h)
      rw [Op.bind_some hpel] at h
      exact ⟨m₁, pelea_pelear hb.2 hfrescos hpel, h⟩
    · next hb => exact ⟨m, pelea_nada hb, h⟩
  have hsub : quedanBloqueados f peleas m ⊆ m.listaBloqueados := by
    unfold quedanBloqueados
    cases quienCae f peleas m with
    | none => exact List.Subset.refl _
    | some c => exact List.eraseP_subset
  have hay : ∀ p ∈ quedanBloqueados f peleas m, m₁.hayPara p = hayLuego f peleas m p := by
    intro p hmem
    rw [Estado.hayPara, hp.pcb p (hfrescos p (hsub hmem)), hp.listaPokenest, hayLuego]
  have hids₁ : (m₁.listaPokenest.map Pokenest.identificador).Nodup := by
    rw [hp.listaPokenest]
    cases quienCae f peleas m with
    | none => exact hids
    | some c =>
      rw [Option.elim_some, identificadores_devolver]
      exact hids
  have hultimo : ∀ p ∈ m₁.listaBloqueados.dropLast, m₁.hayPara p = false := by
    rw [hp.listaBloqueados]
    intro p hmem
    rw [hay p (List.mem_of_mem_dropLast hmem)]
    exact hantes p hmem
  rw [liberarBloqueados_ultimo hids₁ hultimo] at hlib
  rw [← (Op.some_inj hlib).2]
  change m₁.listaBloqueados.filter _ = _
  rw [hp.listaBloqueados]
  exact List.filter_congr fun p hmem => by rw [hay p hmem]

end Pasa

/-! ## The invariant -/

/-- Where the trainer of the turn is: one that is to leave `listaListos` is there still, if it is
blocked. -/
def EnTurnoDe (m : Estado) : Turno → Prop
  | .libre => True
  | .enCurso p _ => m.listaListos.head? = some p
  | .agotado p k => (k = 0 → m.listaListos.head? = some p) ∧
    (k = 1 → m.sock p ∈ m.listaBloqueados.map m.sock → m.sock p ∈ m.listaListos.map m.sock)
  | .elegido p _ => p ∈ m.listaListos

/-- The ready trainers when the turn ends. -/
def Partida.quedanListos (s : Partida) : List ℤ :=
  s.turno.saliente.elim s.listos fun p => s.listos.erase (s.mapa.sock p)

theorem Partida.quedanListos_sale {s : Partida} {p : ℕ} (h : s.turno.saliente = some p) :
    s.quedanListos = s.listos.erase (s.mapa.sock p) := by
  rw [quedanListos, h, Option.elim_some]

theorem Partida.quedanListos_nadie {s : Partida} (h : s.turno.saliente = none) :
    s.quedanListos = s.listos := by
  rw [quedanListos, h, Option.elim_none]

theorem Partida.quedanListos_trasMensaje {m : Estado} {js : List ℕ} {p n : ℕ} {k : ℤ} :
    Partida.quedanListos ⟨⟨m, trasMensaje p n k⟩, js⟩ =
      if k = 1 then (m.listaListos.map m.sock).erase (m.sock p) else m.listaListos.map m.sock := by
  by_cases hk : k = 1
  · subst hk
    exact Partida.quedanListos_sale rfl
  · rw [if_neg hk]
    apply Partida.quedanListos_nadie
    change (trasMensaje p n k).saliente = none
    unfold trasMensaje
    split
    · exact if_neg hk
    · rfl

theorem enTurnoDe_trasMensaje {m : Estado} {p n : ℕ} {k : ℤ}
    (hhead : k ≠ 1 → m.listaListos.head? = some p)
    (hsale : m.sock p ∈ m.listaBloqueados.map m.sock → m.sock p ∈ m.listaListos.map m.sock) :
    EnTurnoDe m (trasMensaje p n k) := by
  unfold trasMensaje
  split
  · exact ⟨fun hk => hhead (by omega), fun _ => hsale⟩
  · next hno => exact hhead fun hk => hno (.inl hk)

/-- Who becomes ready while the planner is elsewhere goes after the others. -/
theorem Partida.quedanListos_ajeno {s : Partida} {m' : Estado} {js : List ℕ} {nuevos : List ℤ}
    (hl : m'.listaListos.map m'.sock = s.listos ++ nuevos)
    (hsock : ∀ p, s.turno.saliente = some p → m'.sock p = s.mapa.sock p ∧
      (s.mapa.sock p ∈ nuevos → s.mapa.sock p ∈ s.listos)) :
    Partida.quedanListos ⟨⟨m', s.turno⟩, js⟩ = s.quedanListos ++ nuevos := by
  cases hs : s.turno.saliente with
  | none =>
    rw [quedanListos_nadie hs]
    exact (quedanListos_nadie (s := ⟨⟨m', s.turno⟩, js⟩) hs).trans hl
  | some p =>
    obtain ⟨he, hno⟩ := hsock p hs
    have hquedan : Partida.quedanListos ⟨⟨m', s.turno⟩, js⟩ =
        (m'.listaListos.map m'.sock).erase (m'.sock p) := quedanListos_sale hs
    rw [hquedan, quedanListos_sale hs, he, hl, List.erase_append]
    split
    · rfl
    · next hmem =>
      rw [List.erase_of_not_mem hmem, List.erase_of_not_mem fun hn => hmem (hno hn)]

/-- Others become ready, and the blocked ones are among those that were. -/
theorem EnTurnoDe.mono {m m' : Estado} {t : Turno} {nuevos : List ℕ} (h : EnTurnoDe m t)
    (hl : m'.listaListos = m.listaListos ++ nuevos) (hsock : ∀ p ∈ t.de, m'.sock p = m.sock p)
    (hbloq : m'.listaBloqueados.map m'.sock ⊆ m.listaBloqueados.map m.sock)
    (hlistos : m.listaListos.map m.sock ⊆ m'.listaListos.map m'.sock) : EnTurnoDe m' t := by
  have hhead : ∀ p, m.listaListos.head? = some p → m'.listaListos.head? = some p := by
    intro p hp
    rw [hl, List.head?_append, hp, Option.some_or]
  cases t with
  | libre => trivial
  | enCurso p n => exact hhead p h
  | agotado p k =>
    refine ⟨fun hk => hhead p (h.1 hk), fun hk hp => hlistos ?_⟩
    rw [hsock p rfl] at hp ⊢
    exact h.2 hk (hbloq hp)
  | elegido p segundo =>
    change p ∈ m'.listaListos
    rw [hl]
    exact List.mem_append_left _ h

theorem Turno.de_of_saliente {t : Turno} {p : ℕ} (hp : t.saliente = some p) : p ∈ t.de := by
  cases t with
  | agotado q k =>
    unfold Turno.saliente at hp
    dsimp only at hp
    split at hp
    · exact hp
    · cases hp
  | libre => cases hp
  | enCurso q n => cases hp
  | elegido q segundo => cases hp

/-- The sockets in the lists, as the end of the turn leaves them, are those of who plays. -/
structure Ordenada (s : Partida) : Prop extends Fresca s where
  puesto : EnTurnoDe s.mapa s.turno
  lugares : (s.quedanListos ++ s.bloqueados).Perm s.presentes

theorem map_eraseP_sock (m : Estado) (l : List ℕ) (k : ℤ) :
    (l.eraseP fun q => m.sock q = k).map m.sock = (l.map m.sock).erase k := by
  rw [List.erase_eq_eraseP', List.eraseP_map]
  rfl

theorem perm_erase_right {l l' ps : List ℤ} {k : ℤ} (h : (l ++ l').Perm ps) (hk : k ∈ l') :
    (l ++ l'.erase k).Perm (ps.erase k) := by
  have hcons : (k :: (l ++ l'.erase k)).Perm ps :=
    (List.perm_middle.symm.trans ((List.perm_cons_erase hk).symm.append_left l)).trans h
  simpa using hcons.erase k

theorem perm_erase_left {l l' ps : List ℤ} {k : ℤ} (h : (l ++ l').Perm ps) (hk : k ∈ l) :
    (l.erase k ++ l').Perm (ps.erase k) := by
  rw [← List.erase_append_left _ hk]
  exact h.erase k

namespace Ordenada

variable {s : Partida}

theorem comienza (h : s.Comienza) : Ordenada s := by
  have ht := h.turno
  refine ⟨.comienza h, ?_, ?_⟩
  · rw [ht]
    trivial
  · simp [Partida.quedanListos, ht, Turno.saliente, Partida.listos, Partida.bloqueados,
      Partida.presentes, h.listaListos, h.listaBloqueados, h.jugando]

theorem ajustar (h : Ordenada s) (a : Ajustes) : Ordenada (s.ajustar a) :=
  ⟨h.toFresca.ajustar a, h.puesto, h.lugares⟩

theorem nodup (h : Ordenada s) : (s.quedanListos ++ s.bloqueados).Nodup :=
  h.lugares.nodup_iff.mpr h.distintos

theorem nodup_bloqueados (h : Ordenada s) : s.bloqueados.Nodup :=
  (List.nodup_append.mp h.nodup).2.1

theorem listos_of_saliente (h : Ordenada s) {p : ℕ} (hp : s.turno.saliente = some p)
    (hb : s.mapa.sock p ∈ s.bloqueados) : s.mapa.sock p ∈ s.listos := by
  have hpuesto := h.puesto
  cases ht : s.turno with
  | agotado q k =>
    rw [ht] at hp hpuesto
    unfold Turno.saliente at hp
    dsimp only at hp
    split at hp
    · next hk =>
      obtain rfl := Option.some.inj hp
      exact hpuesto.2 hk hb
    · cases hp
  | libre => rw [ht] at hp; cases hp
  | enCurso q n => rw [ht] at hp; cases hp
  | elegido q segundo => rw [ht] at hp; cases hp

theorem enUnaLista (h : Ordenada s) (ht : s.turno = .libre) : s.EnUnaLista := by
  have hl : s.quedanListos = s.listos := Partida.quedanListos_nadie (by rw [ht]; rfl)
  refine ⟨h.distintos, ?_⟩
  intro k
  rw [← List.count_append, ← hl, h.lugares.count_eq]
  split
  · next hk => exact List.count_eq_one_of_mem h.distintos hk
  · next hk => exact List.count_eq_zero.mpr hk

/-! ### Connections -/

theorem conecta {f : Fabrica} {sockfd : ℤ} {path : Nombre} {id : UInt8} {m' : Estado}
    (h : Ordenada s) (hadmite : s.Admite (.conecta sockfd path id))
    (horden : s.EnOrden f (.conecta sockfd path id)) (hc : Conectado s.mapa sockfd m') :
    Ordenada ⟨⟨m', s.turno⟩, s.mapa.libre :: s.jugando⟩ := by
  have hsock : ∀ p < s.mapa.libre, m'.sock p = s.mapa.sock p := fun p hp =>
    congrArg Pcb.sockfd (hc.pcb p hp)
  have hlistos : m'.listaListos.map m'.sock = s.listos ++ [sockfd] := by
    rw [hc.listaListos, List.map_append, List.map_congr_left fun p hp => hsock p (h.listos p hp),
      List.map_singleton, hc.sock]
    rfl
  have hbloq : m'.listaBloqueados.map m'.sock = s.bloqueados := by
    rw [hc.listaBloqueados]
    exact List.map_congr_left fun p hp => hsock p (h.bloqueados p hp)
  have hpres : (s.mapa.libre :: s.jugando).map m'.sock = sockfd :: s.presentes := by
    rw [List.map_cons, hc.sock]
    exact congrArg _ (List.map_congr_left fun p hp => hsock p (h.jugando p hp))
  have hquedan : Partida.quedanListos ⟨⟨m', s.turno⟩, s.mapa.libre :: s.jugando⟩ =
      s.quedanListos ++ [sockfd] := by
    apply Partida.quedanListos_ajeno hlistos
    intro p hp
    refine ⟨hsock p (h.turno p (Turno.de_of_saliente hp)), ?_⟩
    rw [Partida.EnOrden, hp] at horden
    rw [List.mem_singleton]
    exact fun he => absurd (congrArg some he) horden
  have hpuesto : EnTurnoDe m' s.turno := by
    apply h.puesto.mono hc.listaListos (fun p hp => hsock p (h.turno p hp))
    · rw [hbloq]
      exact List.Subset.refl _
    · rw [hlistos]
      exact List.subset_append_left _ _
  refine ⟨h.toFresca.conecta hadmite hc, hpuesto, ?_⟩
  change (_ ++ m'.listaBloqueados.map m'.sock).Perm ((s.mapa.libre :: s.jugando).map m'.sock)
  rw [hquedan, hbloq, hpres, List.append_assoc]
  exact List.perm_middle.trans (h.lugares.cons sockfd)

/-! ### Messages -/

/-- A message of the trainer in turn, in `roundRobinAlgorithm`. -/
theorem atiende {r : Recibido} {p n : ℕ} {k : ℤ} {m' : Estado} (h : Ordenada s)
    (ht : s.turno = .enCurso p (n + 1)) (hc : Cambio s.mapa (s.mapa.sock p) r k m')
    (hfresca : Fresca ⟨⟨m', trasMensaje p n k⟩, s.quedan r p⟩) :
    Ordenada ⟨⟨m', trasMensaje p n k⟩, s.quedan r p⟩ := by
  have hhead := h.puesto
  rw [ht] at hhead
  have hp : p ∈ s.mapa.listaListos := List.mem_of_head? hhead
  have hx : s.mapa.sock p ∈ s.listos := List.mem_map_of_mem hp
  have hlugares := h.lugares
  rw [Partida.quedanListos_nadie (by rw [ht]; rfl)] at hlugares
  have hsock : m'.sock = s.mapa.sock := hc.listas.1
  -- who is ready is not blocked
  have hno : s.mapa.sock p ∉ s.bloqueados := by
    have hnd := h.nodup
    rw [Partida.quedanListos_nadie (by rw [ht]; rfl)] at hnd
    exact fun hb => (List.nodup_append.mp hnd).2.2 _ hx _ hb rfl
  refine ⟨hfresca, ?_, ?_⟩
  · change EnTurnoDe m' (trasMensaje p n k)
    apply enTurnoDe_trasMensaje
    · intro hk
      cases hc with
      | queda _ _ hi =>
        rw [hi.listaListos]
        exact hhead
      | bloqueado => exact absurd rfl hk
      | cortado => exact absurd rfl hk
      | despedido => exact absurd rfl hk
    · rw [hsock]
      cases hc with
      | queda _ _ hi =>
        rw [hi.listaListos]
        exact fun _ => hx
      | bloqueado _ _ _ hi =>
        have hlistos : m'.listaListos = s.mapa.listaListos := hi.listaListos
        rw [hlistos]
        exact fun _ => hx
      | cortado _ _ hi =>
        rw [hi.listaListos]
        exact fun _ => hx
      | despedido _ hi =>
        have hbloq : m'.listaBloqueados = s.mapa.listaBloqueados := hi.listaBloqueados
        rw [hbloq]
        exact fun hb => absurd hb hno
  · rw [Partida.quedanListos_trasMensaje]
    change (_ ++ m'.listaBloqueados.map m'.sock).Perm ((s.quedan r p).map m'.sock)
    rw [hsock]
    cases hc with
    | queda hk hva hi =>
      rw [if_neg hk, quedan_sigue hva, hi.listaListos, hi.listaBloqueados]
      exact hlugares
    | @bloqueado q _ _ hva hq hi =>
      have hqs := sock_of_getPcbBySockFdListos hp hq
      have hlistos : m'.listaListos = s.mapa.listaListos := hi.listaListos
      have hbloq : m'.listaBloqueados = s.mapa.listaBloqueados ++ [q] := hi.listaBloqueados
      rw [if_pos rfl, quedan_sigue hva, hlistos, hbloq, List.map_append, List.map_singleton, hqs,
        ← List.append_assoc]
      apply List.Perm.trans _ hlugares
      apply List.perm_append_comm.trans
      exact (List.perm_cons_erase hx).symm.append_right _
    | cortado _ hva hi =>
      rw [if_pos rfl, quedan_seVa h.distintos hva, hi.listaListos, hi.listaBloqueados]
      exact perm_erase_left hlugares hx
    | despedido hva hi =>
      have hlistos : m'.listaListos.map s.mapa.sock = s.listos.erase (s.mapa.sock p) := by
        rw [hi.listaListos]
        exact map_eraseP_sock _ _ _
      -- the end of the turn looks for the socket again, and does not find it
      have hno : s.mapa.sock p ∉ s.listos.erase (s.mapa.sock p) := by
        have hnd := h.nodup
        rw [Partida.quedanListos_nadie (by rw [ht]; rfl)] at hnd
        exact (List.nodup_append.mp hnd).1.not_mem_erase
      rw [if_pos rfl, quedan_seVa h.distintos hva, hlistos, List.erase_of_not_mem hno,
        hi.listaBloqueados]
      exact perm_erase_left hlugares hx

theorem atiendeElegido {f : Fabrica} {r : Recibido} {p : ℕ} {segundo : Bool} {k : ℤ} {m' : Estado}
    {t : Turno} (h : Ordenada s) (ht : s.turno = .elegido p segundo)
    (horden : s.EnOrden f (.atiende r)) (hc : Cambio s.mapa (s.mapa.sock p) r k m')
    (hturno : t = .libre ∨ k ≠ 1 ∧ t = .elegido p true) (hfresca : Fresca ⟨⟨m', t⟩, s.quedan r p⟩) :
    Ordenada ⟨⟨m', t⟩, s.quedan r p⟩ := by
  have hp := h.puesto
  rw [ht] at hp
  have hx : s.mapa.sock p ∈ s.listos := List.mem_map_of_mem hp
  have hlugares := h.lugares
  rw [Partida.quedanListos_nadie (by rw [ht]; rfl)] at hlugares
  have horden := horden (by rw [ht]; rfl)
  have hsock : m'.sock = s.mapa.sock := hc.listas.1
  have hquedan : Partida.quedanListos ⟨⟨m', t⟩, s.quedan r p⟩ = m'.listaListos.map m'.sock := by
    rcases hturno with rfl | ⟨_, rfl⟩ <;> rfl
  refine ⟨hfresca, ?_, ?_⟩
  · rcases hturno with rfl | ⟨hk, rfl⟩
    · trivial
    · cases hc with
      | queda _ _ hi =>
        change p ∈ m'.listaListos
        rwa [hi.listaListos]
      | bloqueado => exact absurd rfl hk
      | cortado => exact absurd rfl hk
      | despedido => exact absurd rfl hk
  · rw [hquedan]
    change (_ ++ m'.listaBloqueados.map m'.sock).Perm ((s.quedan r p).map m'.sock)
    rw [hsock]
    cases hc with
    | queda _ hva hi =>
      rw [quedan_sigue hva, hi.listaListos, hi.listaBloqueados]
      exact hlugares
    | bloqueado hblo _ _ _ =>
      rw [horden.1] at hblo
      cases hblo
    | cortado htipo hva _ =>
      rw [horden.2 htipo] at hva
      cases hva
    | despedido hva hi =>
      have hlistos : m'.listaListos.map s.mapa.sock = s.listos.erase (s.mapa.sock p) := by
        rw [hi.listaListos]
        exact map_eraseP_sock _ _ _
      rw [quedan_seVa h.distintos hva, hlistos, hi.listaBloqueados]
      exact perm_erase_left hlugares hx

/-! ### The end of a turn, and the detection -/

theorem termina {p : ℕ} {k : ℤ} (h : Ordenada s) (ht : s.turno = .agotado p k) :
    Ordenada ⟨⟨finDeTurno p k s.mapa, .libre⟩, s.jugando⟩ := by
  have hpuesto := h.puesto
  rw [ht] at hpuesto
  have hfin : ((finDeTurno p k s.mapa).listaListos.map s.mapa.sock).Perm s.quedanListos ∧
      (finDeTurno p k s.mapa).listaBloqueados = s.mapa.listaBloqueados ∧
      (finDeTurno p k s.mapa).sock = s.mapa.sock := by
    unfold finDeTurno
    split
    · next hk =>
      subst hk
      rw [Partida.quedanListos_sale (by rw [ht]; rfl)]
      refine ⟨?_, rfl, rfl⟩
      rw [eliminarSocketListaListos, map_eraseP_sock]
      exact List.Perm.refl _
    · next hk =>
      rw [Partida.quedanListos_nadie (by rw [ht]; exact if_neg hk)]
      split
      · next h0 =>
        obtain ⟨l, hl⟩ := List.head?_eq_some_iff.mp (hpuesto.1 h0)
        have hcola : s.mapa.listaListos.eraseIdx 0 ++ [p] = l ++ [p] := by simp [hl]
        refine ⟨?_, rfl, rfl⟩
        rw [hcola, Partida.listos, hl]
        exact (List.perm_append_singleton p l).map _
      · exact ⟨List.Perm.refl _, rfl, rfl⟩
  obtain ⟨hperm, hbloq, hsock⟩ := hfin
  refine ⟨h.toFresca.termina ht, trivial, ?_⟩
  change (List.map (finDeTurno p k s.mapa).sock (finDeTurno p k s.mapa).listaListos ++
    (finDeTurno p k s.mapa).listaBloqueados.map (finDeTurno p k s.mapa).sock).Perm
      (s.jugando.map (finDeTurno p k s.mapa).sock)
  rw [hsock, hbloq]
  exact (hperm.append_right _).trans h.lugares

/-- A detection in which `nuevos` become ready and leave the blocked ones. -/
theorem detecta_pasan {f : Fabrica} {peleas : Peleas} {m' : Estado} {nuevos : List ℤ}
    (h : Ordenada s) (hd : Deteccion f peleas s.mapa m')
    (hnuevos : (sueltos peleas s.mapa).map m'.sock = nuevos)
    (hbloq : (nuevos ++ m'.listaBloqueados.map s.mapa.sock).Perm
      ((quedanBloqueados f peleas s.mapa).map s.mapa.sock)) :
    Ordenada ⟨⟨m', s.turno⟩, s.siguen m' (.detecta peleas)⟩ := by
  have hsock : ∀ p < s.mapa.libre, m'.sock p = s.mapa.sock p := fun p hp =>
    congrArg Pcb.sockfd (hd.pcb p hp)
  have hlistos : m'.listaListos.map m'.sock = s.listos ++ nuevos := by
    rw [hd.listaListos, List.map_append, hnuevos]
    exact congrArg (· ++ nuevos) (List.map_congr_left fun p hp => hsock p (h.listos p hp))
  have hjs : (s.siguen m' (.detecta peleas)).Sublist s.jugando := List.filter_sublist
  have hpres : (s.siguen m' (.detecta peleas)).map m'.sock =
      (s.siguen m' (.detecta peleas)).map s.mapa.sock :=
    List.map_congr_left fun p hp => hsock p (h.jugando p (hjs.subset hp))
  have hbloqueados : m'.listaBloqueados.map m'.sock = m'.listaBloqueados.map s.mapa.sock :=
    List.map_congr_left fun p hp => hsock p (h.bloqueados p (hd.listaBloqueados hp))
  have hquedan : (quedanBloqueados f peleas s.mapa).map s.mapa.sock ⊆ s.bloqueados := by
    apply List.map_subset
    unfold quedanBloqueados
    cases quienCae f peleas s.mapa with
    | none => exact List.Subset.refl _
    | some c => exact List.eraseP_subset
  have hpuesto : EnTurnoDe m' s.turno := by
    apply h.puesto.mono hd.listaListos (fun p hp => hsock p (h.turno p hp))
    · rw [hbloqueados]
      exact List.map_subset _ hd.listaBloqueados
    · rw [hlistos]
      exact List.subset_append_left _ _
  -- who leaves `listaListos` at the end of the turn, if it becomes ready, was there
  have hajeno : Partida.quedanListos ⟨⟨m', s.turno⟩, s.siguen m' (.detecta peleas)⟩ =
      s.quedanListos ++ nuevos := by
    apply Partida.quedanListos_ajeno hlistos
    intro p hp
    refine ⟨hsock p (h.turno p (Turno.de_of_saliente hp)), fun hn => ?_⟩
    exact h.listos_of_saliente hp (hquedan (hbloq.subset (List.mem_append_left _ hn)))
  refine ⟨h.toFresca.detecta hd, hpuesto, ?_⟩
  change (_ ++ m'.listaBloqueados.map m'.sock).Perm (List.map m'.sock _)
  rw [hajeno, hpres, hbloqueados, List.append_assoc, siguen_detecta hd]
  refine (hbloq.append_left _).trans ?_
  unfold quedanBloqueados
  cases hc : quienCae f peleas s.mapa with
  | none => exact h.lugares
  | some c =>
    have hx : s.mapa.sock c ∈ s.bloqueados := List.mem_map_of_mem (quienCae_mem hc)
    simp only [Option.elim_some]
    rw [map_eraseP_sock, presentes_sinSocket h.distintos]
    exact perm_erase_right h.lugares hx

/-- A detection after which the ready trainers and the blocked ones are still all of them. -/
theorem detecta {f : Fabrica} {peleas : Peleas} {m' : Estado} (h : Ordenada s)
    (horden : s.EnOrden f (.detecta peleas))
    (he : detectarDeadLock f peleas s.mapa = (some ⟨⟩, m')) :
    Ordenada ⟨⟨m', s.turno⟩, s.siguen m' (.detecta peleas)⟩ := by
  have hd := deteccion_detectarDeadLock h.bloqueados he
  rcases horden with ⟨hsueltos, hnadie⟩ | hpasa
  · apply h.detecta_pasan hd rfl
    rw [hsueltos, List.map_nil, List.nil_append, hd.nadieSigue h.nodup_bloqueados hnadie]
  · obtain ⟨hids, hantes, horig⟩ := hpasa
    apply h.detecta_pasan hd ((sock_sueltos hd).trans (congrArg _ horig))
    rw [listaBloqueados_pasa h.bloqueados hids hantes he, ← List.map_append]
    exact (List.filter_append_perm _ _).map _

theorem jugada {f : Fabrica} {s' : Partida} {e : Evento} (h : Ordenada s) (hadmite : s.Admite e)
    (horden : s.EnOrden f e) (hj : Jugada f s e s') : Ordenada s' := by
  have hfresca := h.toFresca.jugada hadmite hj
  cases hj with
  | conecta he => exact h.conecta hadmite horden (conectado_nuevoEntrenadorConectado he)
  | empieza ht hp =>
    have hl := h.lugares
    rw [Partida.quedanListos_nadie (by rw [ht]; rfl)] at hl
    exact ⟨hfresca, hp, hl⟩
  | elige ht hp =>
    have hl := h.lugares
    rw [Partida.quedanListos_nadie (by rw [ht]; rfl)] at hl
    exact ⟨hfresca, hp, hl⟩
  | atiende ht hm => exact h.atiende ht hm.cambio hfresca
  | atiendeElegido ht hm hi _ _ hturno =>
    exact h.atiendeElegido ht horden (hm.cambio.inmovil hi) hturno hfresca
  | termina ht => exact h.termina ht
  | detecta he => exact h.detecta horden he
  | recarga => exact ⟨hfresca, h.puesto, h.lugares⟩

end Ordenada

/-! ## Whole runs -/

/-- A step in order, with the configuration of that moment. -/
def PasoEnOrden (f : Fabrica) (s : Partida) (e : Ajustes × Evento) (s' : Partida) : Prop :=
  PasoPartida f s e s' ∧ (s.ajustar e.1).EnOrden f e.2

theorem Ordenada.paso {f : Fabrica} {s s' : Partida} {e : Ajustes × Evento} (h : Ordenada s)
    (hpaso : PasoEnOrden f s e s') : Ordenada s' := by
  obtain ⟨⟨hstep, hadmite⟩, horden⟩ := hpaso
  exact (h.ajustar e.1).jugada (hadmite.ajustar e.1) horden (Partida.avanzar_jugada hstep)

/-- In a run in order, between two turns every trainer that plays is in one of the lists. -/
theorem cada_uno_en_una_lista {f : Fabrica} {s₀ s : Partida} {es : List (Ajustes × Evento)}
    (h₀ : s₀.Comienza) (hrun : Run (PasoEnOrden f) s₀ es s) (ht : s.turno = .libre) :
    s.EnUnaLista := by
  have h : Ordenada s := hrun.invariant (fun _ _ _ h hpaso => h.paso hpaso) (.comienza h₀)
  exact h.enUnaLista ht

/-! ## One unit -/

def mapaDeUnaUnidad : Estado where
  listaPokenest := [⟨80, [80], ⟨3, 3⟩, 1⟩]
  directorios := [⟨[80], 80, ⟨3, 3⟩⟩]
  pokeNests _ := [[80, 48, 48, 49, 46, 100, 97, 116]]
  dirDeBill _ := []
  pcb _ :=
    { sockfd := 0, pathEntrenador := [], punto := ⟨0, 0⟩,
      proximaPokenest := ⟨80, [80], ⟨3, 3⟩, 1⟩, listaRecursos := 0, direccionDesconocida := true }
  recursos _ := []
  libre := 0
  listaListos := []
  listaBloqueados := []
  enviados := []
  quantum := 1
  batalla := true

def sinNadie : Partida := ⟨⟨mapaDeUnaUnidad, .libre⟩, []⟩

theorem comienza_sinNadie : sinNadie.Comienza := ⟨rfl, rfl, rfl, rfl⟩

def rrDeUno : Ajustes := ⟨.rr, 1, true⟩

def capturar : Evento := .atiende ⟨3, some 80, none, true, true⟩

def sinBasura : Peleas := ⟨fun _ => (⟨[80], 1⟩, ⟨[80], 1⟩), fun _ => 0, 8⟩

/-- The second trainer blocks for the unit that the first one has. -/
def bloqueaAlSegundo : List Evento :=
  [.conecta 10 [97] 80, .empieza, capturar, .termina, .conecta 11 [98] 80,
    .empieza, .atiende ⟨2, none, some 0, false, false⟩, .termina,
    .empieza, capturar, .termina, .detecta sinBasura]

/-- The first trainer finishes, and the second one is let go. -/
def terminaElPrimero : List Evento :=
  [.empieza, .atiende ⟨4, none, none, false, false⟩, .termina, .detecta sinBasura]

theorem cada_uno_en_una_lista_uno : ∃ s : Partida, s.listos = [10] ∧ s.bloqueados = [11] ∧
    s.EnUnaLista := by
  have hrun : ((bloqueaAlSegundo.map fun e => (rrDeUno, e)).foldlM (fun (s : Partida) e =>
      if s.Admite e.2 ∧ (s.ajustar e.1).EnOrden fabricaDeNiveles e.2 then s.paso fabricaDeNiveles e
      else none) sinNadie).map (fun s => (s.turno, s.listos, s.bloqueados)) =
      some (.libre, [10], [11]) := by decide +kernel
  obtain ⟨s, hs, he⟩ := Option.map_eq_some_iff.mp hrun
  simp only [Prod.mk.injEq] at he
  obtain ⟨ht, hl, hb⟩ := he
  have hes : Run (PasoEnOrden fabricaDeNiveles) sinNadie _ s :=
    (Run.of_foldlM hs).mono fun _ _ _ h => ⟨⟨h.1, h.2.1⟩, h.2.2⟩
  exact ⟨s, hl, hb, cada_uno_en_una_lista comienza_sinNadie hes ht⟩

theorem no_todos_en_una_lista : ¬ ∀ (f : Fabrica) (s₀ s : Partida) (es : List (Ajustes × Evento)),
    s₀.Comienza → Run (PasoPartida f) s₀ es s → s.turno = .libre → s.EnUnaLista := by
  intro h
  have hrun : (((bloqueaAlSegundo ++ terminaElPrimero).map fun e => (rrDeUno, e)).foldlM
      (fun (s : Partida) e => if s.Admite e.2 then s.paso fabricaDeNiveles e else none) sinNadie).map
        (fun s => (s.turno, s.presentes, s.listos, s.bloqueados)) =
      some (.libre, [11], [], []) := by decide +kernel
  obtain ⟨s, hs, he⟩ := Option.map_eq_some_iff.mp hrun
  simp only [Prod.mk.injEq] at he
  obtain ⟨ht, hp, hl, hb⟩ := he
  have huna := (h fabricaDeNiveles _ s _ comienza_sinNadie (Run.of_foldlM hs) ht).2 11
  rw [hl, hb, hp] at huna
  revert huna
  decide

end TpSo.Mapa
