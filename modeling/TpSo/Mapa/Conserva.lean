import TpSo.Mapa.Deteccion

/-!
# What the detection keeps

A relation between two states that the sends, the changes of `listaBloqueados` and the releases keep
is kept by the battles and by the unblocking too, also when they do not come back. The detection
does not send `OK`.
-/

namespace TpSo.Mapa

structure Conserva (R : Estado → Estado → Prop) : Prop where
  refl : ∀ m, R m m
  trans : ∀ m m' m'', R m m' → R m' m'' → R m m''
  enviar : ∀ m s e, e ≠ .ok → R m (m.enviar s e)
  bloqueados : ∀ m (l : List ℕ), R m { m with listaBloqueados := l }
  liberar : ∀ p, Op.Keeps R (liberarRecursosBloqueados p)

namespace Conserva
variable {R : Estado → Estado → Prop} (h : Conserva R)
include h

theorem enviarMensaje (p : ℕ) {e : Envio} (he : e ≠ .ok) : Op.Keeps R (enviarMensaje p e) :=
  fun m => h.enviar m _ e he

theorem liberarRecursosListos (sockfd : ℤ) : Op.Keeps R (liberarRecursosListos sockfd) := by
  apply Op.Keeps.bind h.trans (Op.Keeps.get h.refl _)
  intro pcb
  cases pcb with
  | none => exact Op.Keeps.abort h.refl
  | some p => exact h.liberar p

theorem castigar (ultimos : Bool) (perdedor : ℕ) : Op.Keeps R (castigar ultimos perdedor) := by
  cases ultimos with
  | false => exact Op.Keeps.pure h.refl _
  | true =>
    apply Op.Keeps.bind h.trans (h.liberar perdedor)
    intro _
    apply Op.Keeps.bind h.trans
    · exact fun m => h.bloqueados m _
    · exact fun _ => Op.Keeps.pure h.refl _

theorem repartir (ultimos : Bool) (perdedor ganador : ℕ) :
    Op.Keeps R (repartir ultimos perdedor ganador) := by
  apply Op.Keeps.bind h.trans (h.castigar ultimos perdedor)
  intro mensaje
  apply Op.Keeps.bind h.trans (h.enviarMensaje _ (by simp))
  exact fun _ => h.enviarMensaje _ (by simp)

theorem batalla (f : Fabrica) (pokemones : Pokemona × Pokemona) (marcados : List ℕ) :
    Op.Keeps R (batalla f pokemones marcados) := by
  unfold Mapa.batalla
  split
  · apply Op.Keeps.bind h.trans (h.enviarMensaje _ (by simp))
    intro _
    apply Op.Keeps.bind h.trans (h.enviarMensaje _ (by simp))
    intro _
    dsimp only
    split
    · apply Op.Keeps.bind h.trans (h.repartir _ _ _)
      exact fun _ => Op.Keeps.pure h.refl _
    split
    · apply Op.Keeps.bind h.trans (h.repartir _ _ _)
      exact fun _ => Op.Keeps.pure h.refl _
    · exact Op.Keeps.pure h.refl _
  · exact Op.Keeps.abort h.refl

theorem batallas (f : Fabrica) (pokemones : ℕ → Pokemona × Pokemona) (fuel : ℕ)
    (marcados : List ℕ) : Op.Keeps R (batallas f pokemones fuel marcados) := by
  apply Op.Keeps.whileDo h.refl h.trans
  intro e
  apply Op.Keeps.bind h.trans (h.batalla f _ _)
  exact fun _ => Op.Keeps.pure h.refl _

theorem liberarBloqueado (i entrenador : ℕ) (recursos : List Pokenest) :
    Op.Keeps R (liberarBloqueado i entrenador recursos) := by
  induction recursos with
  | nil => exact Op.Keeps.pure h.refl _
  | cons recurso recursos ih =>
    intro m
    unfold Mapa.liberarBloqueado
    split
    · split
      · apply h.trans _ _ _ (h.enviar m (m.sock entrenador) .estasDesbloqueado (by simp))
        apply h.trans _ _ _ (h.bloqueados _ _)
        exact ih _
      · exact h.enviar m _ _ (by simp)
    · exact ih m

theorem liberarDesde (recursos : List Pokenest) (posiciones : List ℕ) :
    Op.Keeps R (liberarDesde recursos posiciones) := by
  induction posiciones with
  | nil => exact Op.Keeps.pure h.refl _
  | cons i posiciones ih =>
    apply Op.Keeps.bind h.trans (Op.Keeps.get h.refl _)
    intro entrenador
    cases entrenador with
    | some p =>
      apply Op.Keeps.bind h.trans (h.liberarBloqueado i p recursos)
      exact fun _ => ih
    | none =>
      dsimp only
      split
      · exact ih
      · exact Op.Keeps.abort h.refl

theorem liberarBloqueados : Op.Keeps R liberarBloqueados := by
  apply Op.Keeps.bind h.trans (Op.Keeps.get h.refl _)
  exact fun m => h.liberarDesde _ _

end Conserva

/-- The detection, where the copies and the release of the unmarked are of the relation too. -/
theorem Conserva.detectarDeadLock {R : Estado → Estado → Prop} (h : Conserva R)
    (hcopiar : Op.Keeps R copiarEntrenadores) (hlibres : ∀ l m, R m (liberarNoMarcados l m))
    (f : Fabrica) (peleas : Peleas) : Op.Keeps R (detectarDeadLock f peleas) := by
  have hpelear : Op.Keeps R (pelear f peleas) := by
    apply Op.Keeps.bind h.trans hcopiar
    intro entrenadores
    apply Op.Keeps.bind h.trans (Op.Keeps.get h.refl _)
    intro m
    apply Op.Keeps.bind h.trans
    · exact fun m' => hlibres _ m'
    · intro _
      apply Op.Keeps.bind h.trans (h.batallas f _ _ _)
      exact fun _ => Op.Keeps.pure h.refl _
  apply Op.Keeps.bind h.trans (Op.Keeps.get h.refl _)
  intro m
  dsimp only [id_eq]
  split
  · apply Op.Keeps.bind h.trans hpelear
    exact fun _ => h.liberarBloqueados
  · exact h.liberarBloqueados

end TpSo.Mapa
