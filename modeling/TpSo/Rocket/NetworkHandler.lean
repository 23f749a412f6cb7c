import TpSo.Base.Bytes
import TpSo.Base.Dialogue
import TpSo.Base.Machine

/-!
# `networkHandler`

Sending is a loop, so that a field goes out whole however little of it each `send` takes. The
programs that use the library receive with its loop, that waits for all of a field, or, the maps and
the trainers, with a single `recv`, that leaves what it does not fill of its buffer as it was.
-/

namespace TpSo.Rocket

open Dialogue

abbrev Entero := {x : ℤ // -2 ^ 31 ≤ x ∧ x < 2 ^ 31}

def bytesDeInt (x : ℤ) : List UInt8 := bytesOfInt 4 x

@[simp] theorem length_bytesDeInt (x : ℤ) : (bytesDeInt x).length = 4 := length_bytesOfInt 4 x

theorem bytesDeInt_ne_nil (x : ℤ) : bytesDeInt x ≠ [] := by
  rw [← List.length_pos_iff, length_bytesDeInt]
  exact Nat.succ_pos 3

theorem natOfBytes_bytesDeInt (x : ℤ) : natOfBytes (bytesDeInt x) = u32 x := by
  have h := natOfBytes_bytesOfInt 4 x
  rw [bytesDeInt, u32]
  omega

theorem intOfBytes_bytesDeInt_eq (x : ℤ) : intOfBytes (bytesDeInt x) = i32 x := by
  have h := natOfBytes_bytesDeInt x
  rw [intOfBytes, h, length_bytesDeInt, u32, i32]
  split <;> split <;> omega

theorem intOfBytes_bytesDeInt (x : Entero) : intOfBytes (bytesDeInt x.1) = x.1 := by
  have hlow := x.2.1
  have hhigh := x.2.2
  exact intOfBytes_bytesOfInt (by omega) (by omega)

theorem intOfBytes_bytesOfInt_two (x : ℤ) : intOfBytes (bytesOfInt 2 x) = i16 x := by
  have h := natOfBytes_bytesOfInt 2 x
  rw [intOfBytes, length_bytesOfInt, i16]
  split <;> split <;> omega

/-- The recursion of `librocket_enviarMensaje`, for at most as many calls as bytes. -/
def enviarDesde : ℕ → List UInt8 → Talker ℕ
  | 0, _ => pure 0
  | llamadas + 1, datos => do
    let bytesEnviados ← send datos
    if bytesEnviados < datos.length then do
      let _ ← enviarDesde llamadas (datos.drop bytesEnviados)
      pure bytesEnviados
    else pure bytesEnviados

def librocketEnviarMensaje (datos : List UInt8) : Talker ℕ := enviarDesde datos.length datos

def enviarCampos : List (List UInt8) → Talker PUnit
  | [] => pure ⟨⟩
  | campo :: campos => do
    let _ ← librocketEnviarMensaje campo
    enviarCampos campos

def sizeT (x : ℤ) : ℕ := (x % 2 ^ 64).toNat

/-- The recursion of `librocket_recibirMensaje`, on a connection that stays up. To receive nothing
is taken for a closed connection. -/
def recibirDesde : ℕ → ℕ → Talker (ℤ × List UInt8)
  | 0, _ => pure (0, [])
  | llamadas + 1, bytesAleer =>
    if bytesAleer = 0 then pure (0, [])
    else do
      let bytes ← recv bytesAleer
      if bytes.length < bytesAleer then do
        -- what is missing is an `int` on its way to the next call
        let resto ← recibirDesde llamadas (sizeT (i32 (bytesAleer - bytes.length)))
        pure (1, bytes ++ resto.2)
      else pure (1, bytes)

def librocketRecibirMensaje (bytesAleer : ℕ) : Talker (ℤ × List UInt8) :=
  recibirDesde bytesAleer bytesAleer

/-- `recv` into a buffer: the result, and what the buffer then holds. -/
def recvEn (buffer : List UInt8) : Talker (ℕ × List UInt8) :=
  if buffer.length = 0 then pure (0, buffer)
  else do
    let bytes ← recv buffer.length
    pure (bytes.length, bytes ++ buffer.drop bytes.length)

def sinIniciar (basura : ℕ → UInt8) (n : ℕ) : List UInt8 := (List.range n).map basura

@[simp] theorem length_sinIniciar (basura : ℕ → UInt8) (n : ℕ) :
    (sinIniciar basura n).length = n := by
  simp [sinIniciar]

/-- A negative size is too large for `malloc`: the `NULL` it gives ends the process. -/
def malloc (basura : ℕ → UInt8) (size : ℤ) : Talker (List UInt8) :=
  if size < 0 then .stop else pure (sinIniciar basura size.toNat)

/-! ## What they do in a script -/

section Talks
variable {whole : Bool} {p : Party}

theorem talks_enviarDesde {llamadas : ℕ} {datos : List UInt8} (hdatos : datos ≠ [])
    (hllamadas : datos.length ≤ llamadas) :
    Talks whole p (fun _ => True) (enviarDesde llamadas datos) [(p, datos)] := by
  induction llamadas generalizing datos with
  | zero => exact absurd (List.length_eq_zero_iff.mp (Nat.le_zero.mp hllamadas)) hdatos
  | succ llamadas ih =>
    refine ⟨[], rfl, hdatos, ?_⟩
    intro n hn hle
    unfold after
    change Talks _ _ _ (if n < datos.length then _ else _) _
    split
    · have hresto : datos.drop n ≠ [] := by
        rw [← List.length_pos_iff, List.length_drop]
        omega
      have hlen : (datos.drop n).length ≤ llamadas := by
        rw [List.length_drop]
        omega
      apply (ih hresto hlen).bind_last
      exact fun _ _ => Talks.pure trivial
    · exact Talks.pure trivial

theorem talks_enviarMensaje {datos : List UInt8} (hdatos : datos ≠ []) :
    Talks whole p (fun _ => True) (librocketEnviarMensaje datos) [(p, datos)] :=
  talks_enviarDesde hdatos (Nat.le_refl _)

theorem talks_enviarCampos {campos : List (List UInt8)} (h : ∀ campo ∈ campos, campo ≠ []) :
    Talks whole p (fun _ => True) (enviarCampos campos) (campos.map fun campo => (p, campo)) := by
  induction campos with
  | nil => exact Talks.pure trivial
  | cons campo campos ih =>
    apply (talks_enviarMensaje (h campo List.mem_cons_self)).bind_cons
    intro _ _
    exact ih fun d hd => h d (List.mem_cons_of_mem _ hd)

theorem talks_recibirDesde {llamadas : ℕ} {d : List UInt8} (hd : d ≠ [])
    (hint : d.length < 2147483648) (hllamadas : d.length ≤ llamadas) :
    Talks whole p (fun r => r = (1, d)) (recibirDesde llamadas d.length) [(p.other, d)] := by
  induction llamadas generalizing d with
  | zero => exact absurd (List.length_eq_zero_iff.mp (Nat.le_zero.mp hllamadas)) hd
  | succ llamadas ih =>
    rw [recibirDesde, if_neg (List.length_pos_iff.mpr hd).ne']
    refine ⟨d, [], rfl, hd, rfl, ?_⟩
    intro n hn hle _
    change Talks _ _ _ (if (d.take n).length < d.length then _ else _) _
    rw [List.length_take, Nat.min_eq_left hle]
    unfold after
    split
    · have hresto : sizeT (i32 (d.length - n)) = (d.drop n).length := by
        rw [List.length_drop, i32_of_range (by omega) (by omega), sizeT]
        omega
      have hne : d.drop n ≠ [] := by
        rw [← List.length_pos_iff, List.length_drop]
        omega
      rw [hresto]
      apply (ih hne (by rw [List.length_drop]; omega) (by rw [List.length_drop]; omega)).bind_last
      intro resto h
      apply Talks.pure
      rw [h, List.take_append_drop]
    · apply Talks.pure
      rw [List.take_of_length_le (by omega)]

/-- A field of less than two gigabytes is received whole, in whatever pieces it comes. -/
theorem talks_recibirMensaje {d : List UInt8} {n : ℕ} (hd : d ≠ []) (hn : d.length = n)
    (hint : n < 2147483648) :
    Talks whole p (fun r => r = (1, d)) (librocketRecibirMensaje n) [(p.other, d)] := by
  subst hn
  exact talks_recibirDesde hd hint (Nat.le_refl _)

theorem talks_recvEn {buffer d : List UInt8} (hd : d ≠ []) (hlen : d.length = buffer.length) :
    Talks true p (fun r => r = (d.length, d)) (recvEn buffer) [(p.other, d)] := by
  have hpos : buffer.length ≠ 0 := by
    rw [← hlen]
    exact (List.length_pos_iff.mpr hd).ne'
  unfold recvEn
  rw [if_neg hpos, ← hlen]
  apply (Talks.recv hd).bind_last
  intro bytes hbytes
  apply Talks.pure
  rw [hbytes, hlen, List.drop_length, List.append_nil]

end Talks

end TpSo.Rocket
