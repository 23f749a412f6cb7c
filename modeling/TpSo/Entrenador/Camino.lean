import Mathlib.Data.Int.Order.Basic
import Mathlib.Logic.Function.Iterate
import TpSo.Base.Machine

/-!
# The way to a pokenest

One round of `completarMapa` in `EN_CAMINO` chooses a direction, sends it and moves the trainer;
the map moves its own copy of the position when it attends the message. The choice looks at the
direction before it, so that the two axes take turns while both coordinates differ.
-/

namespace TpSo.Entrenador

structure Punto where
  puntox : ℤ
  puntoy : ℤ
  deriving DecidableEq, Repr

/-- Both coordinates are values of an `int`. -/
def Punto.EnRango (p : Punto) : Prop :=
  (-2147483648 ≤ p.puntox ∧ p.puntox < 2147483648) ∧
    (-2147483648 ≤ p.puntoy ∧ p.puntoy < 2147483648)

/-- `direccionMovimiento`. -/
inductive Direccion where
  | izquierda
  | derecha
  | abajo
  | arriba
  | sinDireccion
  | sobrePokenest
  deriving DecidableEq, Repr

/-- The number that travels in the message. -/
def Direccion.toInt : Direccion → ℤ
  | izquierda => 1
  | derecha => 2
  | abajo => 3
  | arriba => 4
  | sinDireccion => 5
  | sobrePokenest => 6

/-- `t_estado_entrenador`. -/
inductive Estado where
  | sinPokenest
  | enCamino
  | enPokenest
  | conTodosLosPokemons
  | mapaCompletado
  | bloqueado
  | enDeadlock
  deriving DecidableEq, Repr

def obtenerDireccion (pokenest entrenador : Punto) (ultimaDireccion : Direccion) : Direccion :=
  if entrenador.puntox < pokenest.puntox ∧ ultimaDireccion ≠ .derecha then .derecha
  else if pokenest.puntox < entrenador.puntox ∧ ultimaDireccion ≠ .izquierda then .izquierda
  else if pokenest.puntoy = entrenador.puntoy ∧ entrenador.puntox < pokenest.puntox then .derecha
  else if pokenest.puntoy = entrenador.puntoy ∧ pokenest.puntox < entrenador.puntox then .izquierda
  else if entrenador.puntoy < pokenest.puntoy ∧ ultimaDireccion ≠ .arriba then .arriba
  else if pokenest.puntoy < entrenador.puntoy ∧ ultimaDireccion ≠ .abajo then .abajo
  else if pokenest.puntox = entrenador.puntox ∧ pokenest.puntoy < entrenador.puntoy then .abajo
  else if pokenest.puntox = entrenador.puntox ∧ entrenador.puntoy < pokenest.puntoy then .arriba
  else if pokenest.puntox = entrenador.puntox ∧ pokenest.puntoy = entrenador.puntoy then
    .sobrePokenest
  else .sinDireccion

/-- What the trainer knows of its trip: where it goes, the direction of its last move, its state
and where it is. -/
structure Viaje where
  puntoProximaPokenest : Punto
  ultimaDireccion : Direccion
  estado : Estado
  posicionDelEntrenador : Punto
  deriving DecidableEq, Repr

/-- The move of `posicionarNuevaCoordenada`. -/
def desplazar (p : Punto) : Direccion → Punto
  | .izquierda => { p with puntox := p.puntox - 1 }
  | .derecha => { p with puntox := p.puntox + 1 }
  | .arriba => { p with puntoy := p.puntoy + 1 }
  | .abajo => { p with puntoy := p.puntoy - 1 }
  | .sinDireccion | .sobrePokenest => p

def posicionarNuevaCoordenada (ultimaDireccion : Direccion) (v : Viaje) : Viaje :=
  { v with
    posicionDelEntrenador := desplazar v.posicionDelEntrenador ultimaDireccion
    estado := if ultimaDireccion = .sobrePokenest then .enPokenest else v.estado }

/-- One round in `EN_CAMINO`. The message it sends carries the direction it leaves in
`ultimaDireccion`. -/
def avanzar (v : Viaje) : Viaje :=
  let direccion := obtenerDireccion v.puntoProximaPokenest v.posicionDelEntrenador v.ultimaDireccion
  let v' := posicionarNuevaCoordenada direccion { v with ultimaDireccion := direccion }
  if v'.posicionDelEntrenador = v'.puntoProximaPokenest then { v' with estado := .enPokenest } else v'

/-- `moverPosicion` of the map, on the copy of the position that it keeps. -/
def moverPosicion (direccion : ℤ) (punto : Punto) : Punto :=
  if direccion = 1 then ⟨punto.puntox - 1, punto.puntoy⟩
  else if direccion = 2 then ⟨punto.puntox + 1, punto.puntoy⟩
  else if direccion = 4 then ⟨punto.puntox, punto.puntoy + 1⟩
  else if direccion = 3 then ⟨punto.puntox, punto.puntoy - 1⟩
  else punto

theorem moverPosicion_toInt (d : Direccion) (p : Punto) : moverPosicion d.toInt p = desplazar p d := by
  cases d <;> rfl

/-! ## One round -/

def distancia (p q : Punto) : ℕ := (q.puntox - p.puntox).natAbs + (q.puntoy - p.puntoy).natAbs

theorem distancia_eq_zero {p q : Punto} : distancia p q = 0 ↔ p = q := by
  obtain ⟨x, y⟩ := p
  obtain ⟨x', y'⟩ := q
  simp only [distancia, Punto.mk.injEq]
  omega

/-- The direction goes from `p` to `q`. -/
def Direccion.Lleva (p q : Punto) : Direccion → Prop
  | .izquierda => q.puntox < p.puntox
  | .derecha => p.puntox < q.puntox
  | .abajo => q.puntoy < p.puntoy
  | .arriba => p.puntoy < q.puntoy
  | .sinDireccion => False
  | .sobrePokenest => p = q

/-- No rule fails: each of them chooses a direction that leads to the pokenest. -/
theorem obtenerDireccion_lleva (q p : Punto) (ultima : Direccion) :
    (obtenerDireccion q p ultima).Lleva p q := by
  unfold obtenerDireccion
  split
  · next h => exact h.1
  split
  · next h => exact h.1
  split
  · next h => exact h.2
  split
  · next h => exact h.2
  split
  · next h => exact h.1
  split
  · next h => exact h.1
  split
  · next h => exact h.2
  split
  · next h => exact h.2
  split
  · next h =>
    obtain ⟨x, y⟩ := p
    obtain ⟨x', y'⟩ := q
    simp only [Direccion.Lleva, Punto.mk.injEq]
    exact ⟨h.1.symm, h.2.symm⟩
  · -- some coordinate differs, and a rule that the last direction excludes has one after it
    grind

/-- A move that leads to the pokenest takes one from the distance. -/
theorem distancia_desplazar {d : Direccion} {p q : Punto} (h : d.Lleva p q)
    (hd : d ≠ .sobrePokenest) : distancia (desplazar p d) q + 1 = distancia p q := by
  cases d <;> simp only [Direccion.Lleva, desplazar, distancia, ne_eq, not_true_eq_false] at h hd ⊢ <;>
    omega

theorem enRango_desplazar {d : Direccion} {p q : Punto} (h : d.Lleva p q) (hp : p.EnRango)
    (hq : q.EnRango) : (desplazar p d).EnRango := by
  cases d <;> simp only [Direccion.Lleva, desplazar, Punto.EnRango] at h hp hq ⊢ <;> omega

section Avanzar
variable (v : Viaje)

@[simp] theorem avanzar_puntoProximaPokenest :
    (avanzar v).puntoProximaPokenest = v.puntoProximaPokenest := by
  unfold avanzar
  dsimp only
  split <;> rfl

theorem avanzar_ultimaDireccion : (avanzar v).ultimaDireccion =
    obtenerDireccion v.puntoProximaPokenest v.posicionDelEntrenador v.ultimaDireccion := by
  unfold avanzar
  dsimp only
  split <;> rfl

theorem avanzar_posicion : (avanzar v).posicionDelEntrenador =
    desplazar v.posicionDelEntrenador (avanzar v).ultimaDireccion := by
  rw [avanzar_ultimaDireccion]
  unfold avanzar
  dsimp only
  split <;> rfl

theorem avanzar_lleva :
    (avanzar v).ultimaDireccion.Lleva v.posicionDelEntrenador v.puntoProximaPokenest := by
  rw [avanzar_ultimaDireccion]
  exact obtenerDireccion_lleva _ _ _

/-- What is left of the trip. -/
def Viaje.falta : ℕ := distancia v.posicionDelEntrenador v.puntoProximaPokenest

theorem avanzar_sobre_iff : (avanzar v).ultimaDireccion = .sobrePokenest ↔ v.falta = 0 := by
  have hlleva := avanzar_lleva v
  unfold Viaje.falta
  constructor
  · intro hsobre
    rw [hsobre] at hlleva
    exact distancia_eq_zero.mpr hlleva
  · intro hcero
    by_contra hno
    have hresta := distancia_desplazar hlleva hno
    omega

theorem avanzar_falta (h : v.falta ≠ 0) : (avanzar v).falta + 1 = v.falta := by
  have hno : (avanzar v).ultimaDireccion ≠ .sobrePokenest :=
    fun he => h ((avanzar_sobre_iff v).mp he)
  unfold Viaje.falta
  rw [avanzar_posicion, avanzar_puntoProximaPokenest]
  exact distancia_desplazar (avanzar_lleva v) hno

theorem avanzar_estado (h : v.estado = .enCamino) :
    (avanzar v).estado = if v.falta ≤ 1 then .enPokenest else .enCamino := by
  have hsobre := avanzar_sobre_iff v
  have hfin : (avanzar v).posicionDelEntrenador = v.puntoProximaPokenest ↔ v.falta ≤ 1 := by
    rw [← distancia_eq_zero]
    have hfalta : distancia (avanzar v).posicionDelEntrenador v.puntoProximaPokenest =
        (avanzar v).falta := by
      rw [Viaje.falta, avanzar_puntoProximaPokenest]
    rw [hfalta]
    by_cases hcero : v.falta = 0
    · have hquieto : (avanzar v).falta = v.falta := by
        rw [Viaje.falta, avanzar_posicion, hsobre.mpr hcero, avanzar_puntoProximaPokenest]
        rfl
      omega
    · have hresta := avanzar_falta v hcero
      omega
  have hest : (avanzar v).estado =
      if (avanzar v).posicionDelEntrenador = v.puntoProximaPokenest then .enPokenest
      else if (avanzar v).ultimaDireccion = .sobrePokenest then .enPokenest else v.estado := by
    rw [avanzar_posicion, avanzar_ultimaDireccion]
    unfold avanzar posicionarNuevaCoordenada
    dsimp only
    split <;> rfl
  rw [hest, h]
  by_cases hle : v.falta ≤ 1
  · rw [if_pos (hfin.mpr hle), if_pos hle]
  · have hno : (avanzar v).ultimaDireccion ≠ .sobrePokenest := fun he => hle (by
      have hcero := hsobre.mp he
      omega)
    rw [if_neg (fun he => hle (hfin.mp he)), if_neg hno, if_neg hle]

end Avanzar

/-! ## The turns of the two axes -/

def Direccion.horizontal : Direccion → Bool
  | .izquierda | .derecha => true
  | _ => false

/-- The last move did not go past the pokenest. -/
def Viaje.Apunta (v : Viaje) : Prop :=
  match v.ultimaDireccion with
  | .izquierda => v.puntoProximaPokenest.puntox ≤ v.posicionDelEntrenador.puntox
  | .derecha => v.posicionDelEntrenador.puntox ≤ v.puntoProximaPokenest.puntox
  | .abajo => v.puntoProximaPokenest.puntoy ≤ v.posicionDelEntrenador.puntoy
  | .arriba => v.posicionDelEntrenador.puntoy ≤ v.puntoProximaPokenest.puntoy
  | .sinDireccion | .sobrePokenest => v.posicionDelEntrenador = v.puntoProximaPokenest

theorem avanzar_apunta (v : Viaje) : (avanzar v).Apunta := by
  have hlleva := avanzar_lleva v
  have hpos := avanzar_posicion v
  unfold Viaje.Apunta
  rw [avanzar_puntoProximaPokenest]
  cases hd : (avanzar v).ultimaDireccion with
  | izquierda | derecha | abajo | arriba =>
    rw [hd] at hlleva hpos
    simp only [Direccion.Lleva] at hlleva
    simp only [hpos, desplazar]
    omega
  | sinDireccion =>
    rw [hd] at hlleva
    exact hlleva.elim
  | sobrePokenest =>
    rw [hd] at hlleva hpos
    rw [hpos]
    exact hlleva

/-- While both coordinates differ, the next move is on the other axis. -/
theorem avanzar_alterna {v : Viaje} (h : v.Apunta)
    (hx : v.posicionDelEntrenador.puntox ≠ v.puntoProximaPokenest.puntox)
    (hy : v.posicionDelEntrenador.puntoy ≠ v.puntoProximaPokenest.puntoy) :
    (avanzar v).ultimaDireccion.horizontal = !v.ultimaDireccion.horizontal := by
  rw [avanzar_ultimaDireccion]
  unfold Viaje.Apunta at h
  unfold obtenerDireccion
  cases hu : v.ultimaDireccion with
  | izquierda | derecha | abajo | arriba =>
    rw [hu] at h
    cases lt_or_gt_of_ne hx with
    | inl hlt => grind [Direccion.horizontal]
    | inr hgt => grind [Direccion.horizontal]
  | sinDireccion | sobrePokenest =>
    rw [hu] at h
    exact absurd (congrArg Punto.puntox h) hx

/-! ## The trip -/

def Viaje.tras (v : Viaje) (k : ℕ) : Viaje := (avanzar^[k]) v

def Viaje.mensajes (v : Viaje) : ℕ := max 1 v.falta

namespace Viaje

variable (v : Viaje)

theorem tras_succ (k : ℕ) : v.tras (k + 1) = avanzar (v.tras k) :=
  Function.iterate_succ_apply' avanzar k v

theorem tras_puntoProximaPokenest (k : ℕ) :
    (v.tras k).puntoProximaPokenest = v.puntoProximaPokenest := by
  induction k with
  | zero => rfl
  | succ k ih => rw [tras_succ, avanzar_puntoProximaPokenest, ih]

theorem tras_enRango (hp : v.posicionDelEntrenador.EnRango) (hq : v.puntoProximaPokenest.EnRango)
    (k : ℕ) : (v.tras k).posicionDelEntrenador.EnRango := by
  induction k with
  | zero => exact hp
  | succ k ih =>
    rw [tras_succ, avanzar_posicion]
    apply enRango_desplazar (avanzar_lleva (v.tras k)) ih
    rwa [tras_puntoProximaPokenest]

theorem tras_falta (k : ℕ) : (v.tras k).falta = v.falta - k := by
  induction k with
  | zero => rfl
  | succ k ih =>
    rw [tras_succ]
    by_cases hcero : (v.tras k).falta = 0
    · have hquieto : (avanzar (v.tras k)).falta = (v.tras k).falta := by
        rw [falta, avanzar_posicion, (avanzar_sobre_iff _).mpr hcero, avanzar_puntoProximaPokenest]
        rfl
      omega
    · have hresta := avanzar_falta (v.tras k) hcero
      omega

theorem tras_enCamino (h : v.estado = .enCamino) (k : ℕ) (hk : k < v.mensajes) :
    (v.tras k).estado = .enCamino := by
  unfold mensajes at hk
  induction k with
  | zero => exact h
  | succ k ih =>
    have hfalta := v.tras_falta k
    rw [tras_succ, avanzar_estado _ (ih (by omega)), if_neg (by omega)]

theorem tras_enPokenest (h : v.estado = .enCamino) : (v.tras v.mensajes).estado = .enPokenest := by
  obtain ⟨k, hk⟩ : ∃ k, v.mensajes = k + 1 := ⟨v.mensajes - 1, by unfold mensajes; omega⟩
  have hfalta := v.tras_falta k
  rw [hk, tras_succ, avanzar_estado _ (v.tras_enCamino h k (by omega)), if_pos]
  unfold mensajes at hk
  omega

/-- What is said of a trip: the messages it takes, where it ends, and what each of them does. -/
structure Cumplido : Prop where
  enCamino : ∀ k < v.mensajes, (v.tras k).estado = .enCamino
  enPokenest : (v.tras v.mensajes).estado = .enPokenest
  llega : (v.tras v.mensajes).posicionDelEntrenador = v.puntoProximaPokenest
  direccion : ∀ k < v.mensajes, (v.tras (k + 1)).ultimaDireccion ≠ .sinDireccion
  sobrePokenest : ∀ k < v.mensajes,
    (v.tras (k + 1)).ultimaDireccion = .sobrePokenest → v.falta = 0
  avanza : ∀ k < v.mensajes, (v.tras (k + 1)).ultimaDireccion ≠ .sobrePokenest →
    (v.tras (k + 1)).falta + 1 = (v.tras k).falta
  enRango : ∀ k ≤ v.mensajes, (v.tras k).posicionDelEntrenador.EnRango
  alterna : ∀ k, 0 < k → k < v.mensajes →
    (v.tras k).posicionDelEntrenador.puntox ≠ v.puntoProximaPokenest.puntox →
    (v.tras k).posicionDelEntrenador.puntoy ≠ v.puntoProximaPokenest.puntoy →
    (v.tras (k + 1)).ultimaDireccion.horizontal = !(v.tras k).ultimaDireccion.horizontal

theorem cumplido (h : v.estado = .enCamino) (hp : v.posicionDelEntrenador.EnRango)
    (hq : v.puntoProximaPokenest.EnRango) : v.Cumplido where
  enCamino := v.tras_enCamino h
  enPokenest := v.tras_enPokenest h
  llega := by
    have hfalta := v.tras_falta v.mensajes
    unfold mensajes at hfalta
    rw [← v.tras_puntoProximaPokenest v.mensajes]
    apply distancia_eq_zero.mp
    exact hfalta.trans (by omega)
  direccion k _ := by
    have hlleva := avanzar_lleva (v.tras k)
    rw [tras_succ]
    intro hno
    rw [hno] at hlleva
    exact hlleva
  sobrePokenest k hk hsobre := by
    rw [tras_succ, avanzar_sobre_iff, tras_falta] at hsobre
    unfold mensajes at hk
    omega
  avanza k _ hno := by
    rw [tras_succ] at hno ⊢
    apply avanzar_falta
    exact fun hcero => hno ((avanzar_sobre_iff _).mpr hcero)
  enRango k _ := v.tras_enRango hp hq k
  alterna k hpos _ hx hy := by
    obtain ⟨j, rfl⟩ : ∃ j, k = j + 1 := ⟨k - 1, by omega⟩
    have hapunta := avanzar_apunta (v.tras j)
    rw [← tras_succ] at hapunta
    rw [tras_succ v (j + 1)]
    rw [← v.tras_puntoProximaPokenest (j + 1)] at hx hy
    exact avanzar_alterna hapunta hx hy

end Viaje

end TpSo.Entrenador
