import TpSo.Rocket.NetworkHandler

/-!
# Connections that close and fail

Here `send` and `recv` also end: the network passes so many bytes at a time for a while, and from
then on every call gives 0 or every call gives -1. After a part of the bytes the two functions of the
library go on with the rest, and look no more at what comes of it.
-/

namespace TpSo.Rocket.Corte

/-- What a call of `send` or `recv` is ready to pass. Linux passes less than two gigabytes at once. -/
abbrev Cuenta := {c : ℕ // 0 < c ∧ c < 2147483648}

/-- How the connection ends: with 0, or with -1. -/
inductive Final where
  | cerrada
  | fallida
  deriving DecidableEq, Repr

def Final.toInt : Final → ℤ
  | cerrada => 0
  | fallida => -1

def suma (cuentas : List Cuenta) : ℕ := (cuentas.map Subtype.val).sum

@[simp] theorem suma_nil : suma [] = 0 := rfl

@[simp] theorem suma_cons (c : Cuenta) (cuentas : List Cuenta) :
    suma (c :: cuentas) = c.1 + suma cuentas := rfl

/-! ## Receiving -/

/-- The buffer, and how many bytes of the stream have been received. -/
structure Recepcion where
  buffer : ℕ → UInt8
  leidos : ℕ

/-- The next bytes of the stream go into the buffer. -/
def Recepcion.recibir (flujo : ℕ → UInt8) (s : Recepcion) (desde cantidad : ℕ) : Recepcion where
  buffer i := if desde ≤ i ∧ i < desde + cantidad then flujo (s.leidos + (i - desde)) else s.buffer i
  leidos := s.leidos + cantidad

/-- Every `recv` takes the next of `cuentas`, and gives at most what it is asked for. To receive
nothing gives 0. -/
def librocketRecibirMensaje (flujo : ℕ → UInt8) (final : Final) :
    List Cuenta → Recepcion → ℕ → ℕ → ℤ × Recepcion
  | [], s, _, bytesAleer => (if bytesAleer = 0 then 0 else final.toInt, s)
  | c :: cuentas, s, buffer, bytesAleer =>
    if bytesAleer = 0 then (0, s)
    else
      let bytesHeader := min c.1 bytesAleer
      let s' := s.recibir flujo buffer bytesHeader
      if bytesHeader < bytesAleer then
        -- the result of this call is not looked at
        (1, (librocketRecibirMensaje flujo final cuentas s' (buffer + bytesHeader)
          (sizeT (i32 (bytesAleer - bytesHeader)))).2)
      else (1, s')

/-- The result tells whether the bytes are there. -/
structure RecibeBien (flujo : ℕ → UInt8) (cuentas : List Cuenta) (n : ℕ) (r : ℤ × Recepcion) :
    Prop where
  todos : r.1 = 1 → r.2.leidos = n ∧ ∀ i < n, r.2.buffer i = flujo i
  cortado : suma cuentas < n → r.1 = 0 ∨ r.1 = -1

theorem Recepcion.recibir_recibir (flujo : ℕ → UInt8) (s : Recepcion) (desde k k' : ℕ) :
    (s.recibir flujo desde k).recibir flujo (desde + k) k' = s.recibir flujo desde (k + k') := by
  unfold Recepcion.recibir
  dsimp only
  rw [Nat.add_assoc s.leidos]
  congr 1
  funext i
  by_cases hprimero : desde ≤ i ∧ i < desde + k
  · rw [if_neg (by omega), if_pos hprimero, if_pos (by omega)]
  · by_cases hsegundo : desde + k ≤ i ∧ i < desde + k + k'
    · rw [if_pos hsegundo, if_pos (by omega)]
      congr 1
      omega
    · rw [if_neg hsegundo, if_neg hprimero, if_neg (by omega)]

theorem Recepcion.recibir_zero (flujo : ℕ → UInt8) (s : Recepcion) (desde : ℕ) :
    s.recibir flujo desde 0 = s := by
  unfold Recepcion.recibir
  cases s
  congr 1
  funext i
  rw [if_neg (by omega)]

/-! ## The sizes of the next calls -/

section Faltan
variable {m : ℕ}

/-- What is missing goes through an `int`: from two gigabytes on it comes out as a larger size. -/
theorem faltan_eq (h : m < 4294967296) : sizeT (i32 m) =
    if m < 2147483648 then m else m + 18446744069414584320 := by
  unfold sizeT i32
  split <;> split <;> omega

theorem faltan_cero (h : m < 4294967296) : sizeT (i32 m) = 0 ↔ m = 0 := by
  rw [faltan_eq h]
  split <;> omega

/-- No call passes so many bytes that it would make a difference. -/
theorem min_faltan (h : m < 4294967296) (c : Cuenta) : min c.1 (sizeT (i32 m)) = min c.1 m := by
  have hc := c.2.2
  rw [faltan_eq h]
  split <;> omega

theorem min_lt_faltan (h : m < 4294967296) (c : Cuenta) :
    min c.1 m < sizeT (i32 m) ↔ c.1 < m := by
  have hc := c.2.2
  rw [faltan_eq h]
  split <;> omega

theorem faltan_siguiente (h : m < 4294967296) {k : ℕ} (hk : k ≤ m) :
    sizeT (i32 ((sizeT (i32 m) : ℤ) - k)) = sizeT (i32 ((m - k : ℕ) : ℤ)) := by
  have hmod : i32 ((sizeT (i32 m) : ℤ) - k) = i32 ((m - k : ℕ) : ℤ) := by
    rw [faltan_eq h]
    unfold i32
    split
    · push_cast [hk]
      rfl
    · push_cast [hk]
      split <;> split <;> omega
  rw [hmod]

end Faltan

section Recibe
variable {flujo : ℕ → UInt8} {final : Final}

/-- The calls for what is missing receive it, or all there is. -/
theorem recibir_faltan {cuentas : List Cuenta} {s : Recepcion} {desde m : ℕ} (h : m < 4294967296) :
    (librocketRecibirMensaje flujo final cuentas s desde (sizeT (i32 m))).2 =
      s.recibir flujo desde (min m (suma cuentas)) := by
  induction cuentas generalizing s desde m with
  | nil =>
    rw [librocketRecibirMensaje, suma_nil, Nat.min_zero, Recepcion.recibir_zero]
  | cons c cuentas ih =>
    rw [librocketRecibirMensaje, suma_cons]
    dsimp only
    by_cases hcero : m = 0
    · rw [if_pos ((faltan_cero h).mpr hcero), hcero, Nat.zero_min, Recepcion.recibir_zero]
    · rw [if_neg ((faltan_cero h).not.mpr hcero), min_faltan h]
      by_cases hsigue : c.1 < m
      · rw [if_pos ((min_lt_faltan h c).mpr hsigue),
          Nat.min_eq_left hsigue.le, faltan_siguiente h hsigue.le, ih (by omega),
          Recepcion.recibir_recibir]
        congr 1
        omega
      · rw [if_neg ((min_lt_faltan h c).not.mpr hsigue)]
        have htodo : min c.1 m = min m (c.1 + suma cuentas) := by omega
        rw [htodo]

/-- What the buffer holds after the first `recv` that gives something. -/
theorem recibir_cons {c : Cuenta} {cuentas : List Cuenta} {s : Recepcion} {n : ℕ} (hn : 1 ≤ n) :
    librocketRecibirMensaje flujo final (c :: cuentas) s 0 n =
      (1, s.recibir flujo 0 (if c.1 < n then
        c.1 + min ((n - c.1) % 4294967296) (suma cuentas) else n)) := by
  rw [librocketRecibirMensaje, if_neg (by omega)]
  dsimp only
  by_cases hsigue : c.1 < n
  · have hfaltan : i32 ((n : ℤ) - ((min c.1 n : ℕ) : ℤ)) =
        i32 (((n - c.1) % 4294967296 : ℕ) : ℤ) := by
      rw [Nat.min_eq_left hsigue.le]
      unfold i32
      push_cast [hsigue.le]
      split <;> split <;> omega
    rw [if_pos (by omega), if_pos hsigue, hfaltan, recibir_faltan (Nat.mod_lt _ (by decide)),
      Nat.min_eq_left hsigue.le, Recepcion.recibir_recibir]
  · rw [if_neg (by omega), if_neg hsigue, Nat.min_eq_right (by omega)]

theorem recibirMensaje_nil (s : Recepcion) {n : ℕ} (hn : 1 ≤ n) :
    librocketRecibirMensaje flujo final [] s 0 n = (final.toInt, s) := by
  rw [librocketRecibirMensaje, if_neg (by omega)]

end Recibe

/-- The result is to be relied on if and only if nothing comes before the end, or all of it does and
what is missing after the first piece fits in 32 bits. -/
theorem recibeBien_iff (flujo buffer : ℕ → UInt8) (final : Final) (cuentas : List Cuenta) {n : ℕ}
    (hn : 1 ≤ n) :
    RecibeBien flujo cuentas n (librocketRecibirMensaje flujo final cuentas ⟨buffer, 0⟩ 0 n) ↔
      ∀ c ∈ cuentas.head?, n ≤ suma cuentas ∧ n < 4294967296 + c.1 := by
  cases cuentas with
  | nil =>
    rw [recibirMensaje_nil _ hn]
    constructor
    · rintro - c hc
      cases hc
    · intro _
      cases final with
      | cerrada => exact ⟨fun h => absurd h (show ¬ (0 : ℤ) = 1 by decide), fun _ => .inl rfl⟩
      | fallida => exact ⟨fun h => absurd h (show ¬ (-1 : ℤ) = 1 by decide), fun _ => .inr rfl⟩
  | cons c cuentas =>
    have hpos := c.2.1
    have hmax := c.2.2
    rw [recibir_cons hn]
    constructor
    · intro hbien c' hc'
      obtain rfl := Option.some.inj hc'
      have hleidos := (hbien.todos rfl).1
      have hllegan : ¬ suma (c :: cuentas) < n := fun h => by
        rcases hbien.cortado h with h | h <;> cases h
      refine ⟨Nat.not_lt.mp hllegan, ?_⟩
      change 0 + (if c.1 < n then c.1 + min ((n - c.1) % 4294967296) (suma cuentas) else n) = n
        at hleidos
      split at hleidos <;> omega
    · intro hcond
      obtain ⟨hllegan, hcabe⟩ := hcond c rfl
      rw [suma_cons] at hllegan
      have hcantidad : (if c.1 < n then c.1 + min ((n - c.1) % 4294967296) (suma cuentas) else n)
          = n := by
        split <;> omega
      rw [hcantidad]
      refine ⟨fun _ => ⟨Nat.zero_add n, ?_⟩, ?_⟩
      · intro i hi
        change (if 0 ≤ i ∧ i < 0 + n then flujo (0 + (i - 0)) else buffer i) = flujo i
        rw [if_pos (by omega)]
        congr 1
        omega
      · rw [suma_cons]
        intro hcorto
        omega

/-! ## Sending -/

/-- Every `send` takes the next of `cuentas`, and at most what it is given; `enviados` is what has
been taken. Where it gives 0 the process ends, in a `string_append` of the number of the socket. -/
def librocketEnviarMensaje (final : Final) (datos : ℕ → UInt8) :
    List Cuenta → List UInt8 → ℕ → ℕ → Option ℤ × List UInt8
  | [], enviados, _, bytesAenviar =>
    if bytesAenviar = 0 ∨ final = .cerrada then (none, enviados) else (some (-1), enviados)
  | c :: cuentas, enviados, desde, bytesAenviar =>
    if bytesAenviar = 0 then (none, enviados)
    else
      let bytesEnviados := min c.1 bytesAenviar
      let enviados' := enviados ++ (List.range' desde bytesEnviados).map datos
      if bytesEnviados < bytesAenviar then
        -- the result of this call is not looked at
        let r := librocketEnviarMensaje final datos cuentas enviados' (desde + bytesEnviados)
          (sizeT (i32 (bytesAenviar - bytesEnviados)))
        (r.1.map fun _ => (bytesEnviados : ℤ), r.2)
      else (some bytesEnviados, enviados')

/-- A positive result tells that the message has gone, whole and once. -/
def EnviaBien (datos : ℕ → UInt8) (n : ℕ) (r : Option ℤ × List UInt8) : Prop :=
  ∀ resultado ∈ r.1, 0 < resultado → resultado = n ∧ r.2 = (List.range n).map datos

section Envia
variable {final : Final} {datos : ℕ → UInt8}

/-- The calls for what is missing do not return if they have nothing to send, or if the connection is
closed before it has gone. -/
theorem enviar_faltan {cuentas : List Cuenta} {enviados : List UInt8} {desde m : ℕ}
    (h : m < 4294967296) :
    (librocketEnviarMensaje final datos cuentas enviados desde (sizeT (i32 m))).1 = none ↔
      m = 0 ∨ final = .cerrada ∧ suma cuentas < m := by
  induction cuentas generalizing enviados desde m with
  | nil =>
    simp only [librocketEnviarMensaje, faltan_cero h, suma_nil]
    by_cases hcero : m = 0
    · simp [hcero]
    · have hpos : 0 < m := Nat.pos_of_ne_zero hcero
      by_cases hfin : final = .cerrada
      · simp [hfin, hpos]
      · simp [hcero, hfin]
  | cons c cuentas ih =>
    have hpos := c.2.1
    rw [librocketEnviarMensaje, suma_cons]
    dsimp only
    by_cases hcero : m = 0
    · rw [if_pos ((faltan_cero h).mpr hcero)]
      simp [hcero]
    · rw [if_neg ((faltan_cero h).not.mpr hcero), min_faltan h]
      by_cases hsigue : c.1 < m
      · rw [if_pos ((min_lt_faltan h c).mpr hsigue),
          Nat.min_eq_left hsigue.le, faltan_siguiente h hsigue.le]
        dsimp only
        rw [Option.map_eq_none_iff, ih (by omega)]
        constructor
        · rintro (hnada | ⟨hfin, hcorto⟩)
          · omega
          · exact .inr ⟨hfin, by omega⟩
        · rintro (hnada | ⟨hfin, hcorto⟩)
          · omega
          · exact .inr ⟨hfin, by omega⟩
      · rw [if_neg ((min_lt_faltan h c).not.mpr hsigue)]
        constructor
        · intro hnone
          cases hnone
        · rintro (hnada | ⟨_, hcorto⟩) <;> omega

end Envia

/-- A positive result is to be relied on if and only if the first `send` takes all or nothing, or the
process does not come back from sending the rest. -/
theorem enviaBien_iff (final : Final) (datos : ℕ → UInt8) (cuentas : List Cuenta) {n : ℕ}
    (hn : 1 ≤ n) :
    EnviaBien datos n (librocketEnviarMensaje final datos cuentas [] 0 n) ↔
      ∀ c ∈ cuentas.head?, c.1 < n → (n - c.1) % 4294967296 = 0 ∨
        final = .cerrada ∧ suma cuentas.tail < (n - c.1) % 4294967296 := by
  cases cuentas with
  | nil =>
    constructor
    · rintro - c hc
      cases hc
    · intro _ resultado hres hpos
      rw [librocketEnviarMensaje] at hres
      split at hres
      · cases hres
      · obtain rfl := Option.some.inj hres
        exact absurd hpos (by decide)
  | cons c cuentas =>
    have hc := c.2.1
    rw [librocketEnviarMensaje, if_neg (by omega)]
    dsimp only
    by_cases hsigue : c.1 < n
    · have hfaltan : i32 ((n : ℤ) - ((min c.1 n : ℕ) : ℤ)) =
          i32 (((n - c.1) % 4294967296 : ℕ) : ℤ) := by
        rw [Nat.min_eq_left hsigue.le]
        unfold i32
        push_cast [hsigue.le]
        split <;> split <;> omega
      rw [if_pos (by omega), hfaltan]
      have hresto := @enviar_faltan final datos cuentas
        ([] ++ (List.range' 0 (min c.1 n)).map datos) (0 + min c.1 n) _
        (Nat.mod_lt (n - c.1) (show 0 < 4294967296 by decide))
      constructor
      · intro hbien c' hc' _
        obtain rfl := Option.some.inj hc'
        rw [List.tail_cons, ← hresto]
        generalize librocketEnviarMensaje final datos cuentas _ _ _ = r at hbien
        cases hr : r.1 with
        | none => rfl
        | some resultado =>
          have heq := (hbien ((min c.1 n : ℕ) : ℤ) (by simp [hr]) (by omega)).1
          omega
      · intro hcond resultado hres _
        have hnone := hresto.mpr (hcond c rfl hsigue)
        rw [hnone] at hres
        cases hres
    · rw [if_neg (by omega), Nat.min_eq_right (by omega)]
      constructor
      · intro _ c' hc' hmenor
        obtain rfl := Option.some.inj hc'
        exact absurd hmenor hsigue
      · intro _ resultado hres _
        obtain rfl := Option.some.inj hres
        refine ⟨rfl, ?_⟩
        rw [List.range_eq_range', List.nil_append]

/-- The result of a transfer that is cut after its first piece says nothing of the rest, whatever the
length and the pieces. -/
theorem transferencias_cortadas (final : Final) (cuentas : List Cuenta) {n : ℕ} (hn : 1 ≤ n) :
    (∀ flujo buffer : ℕ → UInt8,
      RecibeBien flujo cuentas n (librocketRecibirMensaje flujo final cuentas ⟨buffer, 0⟩ 0 n) ↔
        ∀ c ∈ cuentas.head?, n ≤ suma cuentas ∧ n < 4294967296 + c.1) ∧
    ∀ datos : ℕ → UInt8,
      EnviaBien datos n (librocketEnviarMensaje final datos cuentas [] 0 n) ↔
        ∀ c ∈ cuentas.head?, c.1 < n → (n - c.1) % 4294967296 = 0 ∨
          final = .cerrada ∧ suma cuentas.tail < (n - c.1) % 4294967296 :=
  ⟨fun flujo buffer => recibeBien_iff flujo buffer final cuentas hn,
    fun datos => enviaBien_iff final datos cuentas hn⟩

def deADos : Cuenta := ⟨2, by decide, by decide⟩

theorem transferencias_cortadas_deADos :
    (∀ flujo buffer : ℕ → UInt8,
      RecibeBien flujo [deADos, deADos] 4
          (librocketRecibirMensaje flujo .cerrada [deADos, deADos] ⟨buffer, 0⟩ 0 4) ↔
        ∀ c ∈ [deADos, deADos].head?, 4 ≤ suma [deADos, deADos] ∧ 4 < 4294967296 + c.1) ∧
    ∀ datos : ℕ → UInt8,
      EnviaBien datos 4 (librocketEnviarMensaje .cerrada datos [deADos, deADos] [] 0 4) ↔
        ∀ c ∈ [deADos, deADos].head?, c.1 < 4 → (4 - c.1) % 4294967296 = 0 ∨
          Final.cerrada = .cerrada ∧ suma [deADos, deADos].tail < (4 - c.1) % 4294967296 :=
  transferencias_cortadas .cerrada [deADos, deADos] (by decide)

/-- Four bytes are asked for, two come and the connection is closed: the result is 1. Four bytes are
sent in two pieces, and the result is 2. -/
theorem transferencias_no_cumplen :
    (librocketRecibirMensaje (fun _ => 7) .cerrada [deADos] ⟨fun _ => 0, 0⟩ 0 4).1 = 1 ∧
    (librocketRecibirMensaje (fun _ => 7) .cerrada [deADos] ⟨fun _ => 0, 0⟩ 0 4).2.leidos = 2 ∧
    librocketEnviarMensaje .fallida (fun _ => 7) [deADos, deADos] [] 0 4 = (some 2, [7, 7, 7, 7]) := by
  decide

end TpSo.Rocket.Corte
