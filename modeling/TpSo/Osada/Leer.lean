import TpSo.Osada.Datos
import TpSo.Osada.Formateo

/-!
# Reading a file

`obtenerArchivoInterna`: the length is cut at the end of the file, and the loop goes along the
chain, over the blocks before the position first. The loop only ends on a block of the chain: it
goes on, with nothing left to read, when it meets the mark that ends it.

Reading changes nothing on the disk. The state of the procedure is the record of what it did:
the positions it gave to `fseek` and the cells of the allocation table it looked at.
-/

namespace TpSo.Osada

open Function (update)

structure Accesos where
  posiciones : List ℕ
  indices : List ℕ
  deriving DecidableEq

def leerEn (d : Disco) (posicion : ℕ) : Op Accesos (List UInt8) := fun s =>
  (some (bytesEn d posicion), { s with posiciones := s.posiciones ++ [posicion] })

theorem leerEn_bind {β : Type} (d : Disco) (posicion : ℕ) (f : List UInt8 → Op Accesos β)
    (s : Accesos) : (leerEn d posicion >>= f) s =
      f (bytesEn d posicion) { s with posiciones := s.posiciones ++ [posicion] } :=
  Op.bind_some rfl

/-- `asignaciones[bloque]`, which kills the process outside of the table. -/
def indexar (d : Disco) (bloque : ℕ) : Op Accesos ℕ := fun s =>
  (if bloque < d.header.dataBlocks then some (d.asignaciones bloque) else none,
    { s with indices := s.indices ++ [bloque] })

/-- The variables of the loop; `archivo` is the buffer up to `punteroArchivo`. -/
structure Recorrido where
  bloqueALeer : ℕ
  bytesALeer : ℤ
  posicionInicial : ℤ
  archivo : List UInt8
  bytesLeidos : ℕ

namespace Recorrido

def largo (r : Recorrido) : ℤ :=
  if 64 ≤ i32 (r.bytesALeer + r.posicionInicial) then 64 - r.posicionInicial else r.bytesALeer

def copiado (r : Recorrido) (bloqueBuffer : List UInt8) : Recorrido :=
  { r with
    bytesALeer := r.bytesALeer - r.largo
    posicionInicial := 0
    archivo := r.archivo ++ (bloqueBuffer.drop r.posicionInicial.toNat).take r.largo.toNat
    bytesLeidos := u32 (r.bytesLeidos + r.largo) }

end Recorrido

/-- The byte of the disk where a block starts, in the 32 bits the source computes it in. -/
def posicionDeBloque (d : Disco) (bloque : ℕ) : ℕ := u32 (bloque * 64 + d.inicio * 64)

/-- A copy that is not within the 64 bytes of the buffer kills the process: a length below zero
is a huge one for `memmove`. -/
def leerBloque (d : Disco) (r : Recorrido) : Op Accesos Recorrido :=
  if r.posicionInicial < 64 then do
    let bloqueBuffer ← leerEn d (posicionDeBloque d r.bloqueALeer)
    if 0 ≤ r.largo ∧ r.posicionInicial + r.largo ≤ 64 then pure (r.copiado bloqueBuffer)
    else Op.abort
  else pure { r with posicionInicial := r.posicionInicial - 64 }

def siguienteBloque (d : Disco) (r : Recorrido) : Op Accesos Recorrido := do
  let bloque ← indexar d r.bloqueALeer
  pure { r with bloqueALeer := bloque }

def recorrerBloque (d : Disco) (r : Recorrido) : Op Accesos Recorrido :=
  leerBloque d r >>= siguienteBloque d

def recorrerBloques (d : Disco) (fuel : ℕ) (r : Recorrido) : Op Accesos Recorrido :=
  Op.whileDo (fun r => 0 < r.bytesALeer ∨ r.bloqueALeer = uint32Max) (recorrerBloque d) fuel r

/-- `bytesALeer` once it is cut at the end of the file. -/
def recortar (fileSize : ℕ) (bytesALeer posicionInicial : ℤ) : ℤ :=
  if fileSize < u32 (bytesALeer + posicionInicial) then i32 (fileSize - posicionInicial)
  else bytesALeer

/-- The bytes read and `*byteLeidos_p`. -/
def obtenerArchivoInterna (d : Disco) (descriptor : OsadaFile) (bytesALeer posicionInicial : ℤ) :
    Op Accesos (List UInt8 × ℕ) := do
  let r ← recorrerBloques d (bytesALeer.toNat + posicionInicial.toNat + 1)
    { bloqueALeer := descriptor.firstBlock
      bytesALeer := recortar descriptor.fileSize bytesALeer posicionInicial
      posicionInicial := posicionInicial, archivo := [], bytesLeidos := 0 }
  pure (r.archivo, r.bytesLeidos)

/-! ## What a read is for -/

/-- The chain of an entry: it ends, its blocks are data blocks and they are enough for the size.
The sizes are those of the 32-bit fields. -/
structure CadenaDe (d : Disco) (descriptor : OsadaFile) (xs : List ℕ) : Prop where
  cadena : Chain d.asignaciones uint32Max descriptor.firstBlock xs
  enRango : ∀ b ∈ xs, b < d.header.dataBlocks
  alcanza : bloquesPara descriptor.fileSize ≤ xs.length
  dataBlocks : d.header.dataBlocks ≤ uint32Max
  fileSize : descriptor.fileSize ≤ uint32Max

/-- Every file of the disk has its chain. -/
def Encadenado (d : Disco) : Prop :=
  ∀ i < 2048, (d.archivos i).state = .regular → ∃ xs, CadenaDe d (d.archivos i) xs

/-- The bytes of the file from `posicion` on, at most `n` of them. -/
def rango (d : Disco) (fileSize : ℕ) (xs : List ℕ) (n posicion : ℕ) : List UInt8 :=
  (((contenido d xs).take fileSize).drop posicion).take n

/-- The length of a range: what is left of the file, or what is asked for. -/
def largoRango (fileSize n posicion : ℕ) : ℕ := min n (fileSize - posicion)

/-- The blocks that hold `n` bytes from `posicion` on. -/
def bloquesDelRango (xs : List ℕ) (n posicion : ℕ) : List ℕ :=
  if n = 0 then [] else (xs.take ((posicion + n - 1) / 64 + 1)).drop (posicion / 64)

/-- What a read of `n` bytes from `posicion` on of a file with the chain `xs` has to do: return the
range with its length, look at cells of the table only, and seek to the blocks of the chain that
hold the range, one after another. -/
def LeeBien (d : Disco) (descriptor : OsadaFile) (xs : List ℕ) (n posicion : ℕ) : Prop :=
  ∃ accesos : Accesos,
    obtenerArchivoInterna d descriptor n posicion ⟨[], []⟩ =
      (some (rango d descriptor.fileSize xs n posicion,
        (rango d descriptor.fileSize xs n posicion).length), accesos) ∧
    (∀ b ∈ accesos.indices, b < d.header.dataBlocks) ∧
    accesos.posiciones =
      (bloquesDelRango xs (largoRango descriptor.fileSize n posicion) posicion).map
        fun b => (d.inicio + b) * 64

/-- With `k` blocks in the chain there is one left after the last byte, and the sum that the
source makes to tell whether a block is read to its end is within its 32 bits. -/
def Alcanza (k n posicion : ℕ) : Prop :=
  n = 0 ∨ (posicion + n - 1) / 64 + 1 < k ∧ posicion % 64 + n < 2147483648

/-- The chain is not empty, and a read that gets any byte stops before the last block of the
chain, in blocks whose position fits in 32 bits. -/
def HayOtroBloque (d : Disco) (descriptor : OsadaFile) (xs : List ℕ) (n posicion : ℕ) : Prop :=
  xs ≠ [] ∧ Alcanza xs.length (largoRango descriptor.fileSize n posicion) posicion ∧
    ∀ b ∈ bloquesDelRango xs (largoRango descriptor.fileSize n posicion) posicion,
      (d.inicio + b) * 64 < 4294967296

/-! ## One round -/

section Ronda
variable {d : Disco} {b n pos leidos : ℕ} {archivo : List UInt8} {s : Accesos}

/-- A loop at the end mark goes on, and looks at the cell of the mark. -/
theorem recorrerBloque_fin (hd : d.header.dataBlocks ≤ uint32Max) {r : Recorrido}
    (hr : r.bloqueALeer = uint32Max) (s : Accesos) : (recorrerBloque d r s).1 = none := by
  have hfin : ∀ (r' : Recorrido) (s' : Accesos), r'.bloqueALeer = uint32Max →
      (siguienteBloque d r' s').1 = none := by
    intro r' s' hr'
    have hi : indexar d r'.bloqueALeer s' =
        (none, { s' with indices := s'.indices ++ [r'.bloqueALeer] }) := by
      rw [indexar, if_neg (by rw [hr']; omega)]
    rw [siguienteBloque, Op.bind_none hi]
  unfold recorrerBloque leerBloque
  split
  · rw [Op.bind_assoc, leerEn_bind]
    split
    · rw [Op.pure_bind']
      exact hfin _ _ hr
    · rw [Op.abort_bind]
  · rw [Op.pure_bind']
    exact hfin _ _ hr

theorem siguienteBloque_eq (hb : b < d.header.dataBlocks) {r : Recorrido}
    (hr : r.bloqueALeer = b) (s : Accesos) :
    siguienteBloque d r s = (some { r with bloqueALeer := d.asignaciones b },
      { s with indices := s.indices ++ [b] }) := by
  have hi : indexar d r.bloqueALeer s =
      (some (d.asignaciones b), { s with indices := s.indices ++ [b] }) := by
    rw [indexar, hr, if_pos hb]
  rw [siguienteBloque, Op.bind_some hi]
  rfl

theorem recorrerBloque_salta (hb : b < d.header.dataBlocks) (hpos : 64 ≤ pos) :
    recorrerBloque d ⟨b, n, pos, archivo, leidos⟩ s =
      (some ⟨d.asignaciones b, n, (pos - 64 : ℕ), archivo, leidos⟩,
        ⟨s.posiciones, s.indices ++ [b]⟩) := by
  have hcast : ((pos : ℤ) - 64) = (pos - 64 : ℕ) := by omega
  have hle : ¬ ((pos : ℤ) < 64) := by omega
  rw [recorrerBloque, leerBloque, if_neg hle, Op.pure_bind', siguienteBloque_eq hb rfl, hcast]

/-- A block is read from the position on, up to its end or to the last byte. -/
theorem recorrerBloque_lee (hb : b < d.header.dataBlocks) (hpos : pos < 64)
    (hsuma : pos + n < 2147483648) (hleidos : leidos + n < 4294967296) :
    recorrerBloque d ⟨b, n, pos, archivo, leidos⟩ s =
      (some ⟨d.asignaciones b, (n - min n (64 - pos) : ℕ), (0 : ℕ),
          archivo ++ ((bytesEn d (posicionDeBloque d b)).drop pos).take n,
          leidos + min n (64 - pos)⟩,
        ⟨s.posiciones ++ [posicionDeBloque d b], s.indices ++ [b]⟩) := by
  have hlt : ((pos : ℤ) < 64) := by omega
  have hi32 : i32 ((n : ℤ) + pos) = n + pos := i32_of_range (by omega) (by omega)
  have hlargo : (Recorrido.mk b n pos archivo leidos).largo = (min n (64 - pos) : ℕ) := by
    unfold Recorrido.largo
    simp only [hi32]
    split <;> omega
  have hcabe : 0 ≤ (Recorrido.mk b n pos archivo leidos).largo ∧
      (pos : ℤ) + (Recorrido.mk b n pos archivo leidos).largo ≤ 64 := by
    rw [hlargo]
    omega
  have htake : ((bytesEn d (posicionDeBloque d b)).drop pos).take (min n (64 - pos)) =
      ((bytesEn d (posicionDeBloque d b)).drop pos).take n := by
    rw [← List.take_take, List.take_of_length_le (i := 64 - pos) (by simp)]
  have hcop : (Recorrido.mk b n pos archivo leidos).copiado (bytesEn d (posicionDeBloque d b)) =
      ⟨b, (n - min n (64 - pos) : ℕ), (0 : ℕ),
        archivo ++ ((bytesEn d (posicionDeBloque d b)).drop pos).take n,
        leidos + min n (64 - pos)⟩ := by
    have hu32 : u32 ((leidos : ℤ) + (min n (64 - pos) : ℕ)) = leidos + min n (64 - pos) := by
      rw [← Nat.cast_add]
      exact u32_natCast_of_lt (by omega)
    have hresta : ((n : ℤ) - (min n (64 - pos) : ℕ)) = (n - min n (64 - pos) : ℕ) := by omega
    unfold Recorrido.copiado
    rw [hlargo]
    simp only [Int.toNat_natCast, htake, hu32, hresta, Nat.cast_zero]
  rw [recorrerBloque, leerBloque, if_pos hlt, Op.bind_assoc, leerEn_bind, if_pos hcabe,
    Op.pure_bind', siguienteBloque_eq hb rfl, hcop]

/-- Past the 32 bits the sum is below zero, and the copy takes more than the block has. -/
theorem recorrerBloque_desborda (hpos : pos < 64) (hn : n < 2147483648)
    (hsuma : 2147483648 ≤ pos + n) :
    (recorrerBloque d ⟨b, n, pos, archivo, leidos⟩ s).1 = none := by
  have hlt : ((pos : ℤ) < 64) := by omega
  have hlargo : (Recorrido.mk b n pos archivo leidos).largo = n := by
    unfold Recorrido.largo
    apply if_neg
    unfold i32
    dsimp only
    split <;> omega
  have hcabe : ¬ (0 ≤ (Recorrido.mk b n pos archivo leidos).largo ∧
      (pos : ℤ) + (Recorrido.mk b n pos archivo leidos).largo ≤ 64) := by
    rw [hlargo]
    omega
  rw [recorrerBloque, leerBloque, if_pos hlt, Op.bind_assoc, leerEn_bind, if_neg hcabe,
    Op.abort_bind]

end Ronda

/-! ## The blocks of a range -/

theorem bloquesDelRango_cero (xs : List ℕ) (posicion : ℕ) : bloquesDelRango xs 0 posicion = [] :=
  if_pos rfl

theorem bloquesDelRango_salta {b n posicion : ℕ} {xs : List ℕ} (h : 64 ≤ posicion) :
    bloquesDelRango (b :: xs) n posicion = bloquesDelRango xs n (posicion - 64) := by
  unfold bloquesDelRango
  by_cases hn : n = 0
  · rw [if_pos hn, if_pos hn]
  rw [if_neg hn, if_neg hn]
  have hultimo : (posicion + n - 1) / 64 = (posicion - 64 + n - 1) / 64 + 1 := by omega
  have hprimero : posicion / 64 = (posicion - 64) / 64 + 1 := by omega
  rw [hultimo, hprimero, List.take_succ_cons, List.drop_succ_cons]

theorem bloquesDelRango_lee {b n posicion : ℕ} {xs : List ℕ} (hn : 0 < n) (h : posicion < 64) :
    bloquesDelRango (b :: xs) n posicion =
      b :: bloquesDelRango xs (n - min n (64 - posicion)) 0 := by
  have hprimero : posicion / 64 = 0 := by omega
  unfold bloquesDelRango
  rw [if_neg (by omega), hprimero, List.drop_zero, List.take_succ_cons]
  congr 1
  by_cases hr : n - min n (64 - posicion) = 0
  · have hultimo : (posicion + n - 1) / 64 = 0 := by omega
    rw [if_pos hr, hultimo, List.take_zero]
  · have hultimo :
        (posicion + n - 1) / 64 = (0 + (n - min n (64 - posicion)) - 1) / 64 + 1 := by omega
    rw [if_neg hr, hultimo, Nat.zero_div, List.drop_zero]

theorem contenido_salta {d : Disco} {b posicion : ℕ} {xs : List ℕ} (h : 64 ≤ posicion) :
    (contenido d (b :: xs)).drop posicion = (contenido d xs).drop (posicion - 64) := by
  rw [contenido, List.flatMap_cons, List.drop_append, List.drop_of_length_le (by simpa using h),
    List.nil_append, length_bytesEn, contenido]

theorem contenido_lee {d : Disco} {b posicion : ℕ} {xs : List ℕ} (n : ℕ) (h : posicion < 64) :
    ((contenido d (b :: xs)).drop posicion).take n =
      ((bytesEn d ((d.inicio + b) * 64)).drop posicion).take n ++
        (contenido d xs).take (n - min n (64 - posicion)) := by
  rw [contenido, List.flatMap_cons, List.drop_append_of_le_length (by simpa using h.le),
    List.take_append, List.length_drop, length_bytesEn, contenido]
  congr 2
  omega

/-! ## The loop -/

theorem Alcanza.salta {k n posicion : ℕ} (h : 64 ≤ posicion) (hn : 0 < n) :
    Alcanza (k + 1) n posicion ↔ Alcanza k n (posicion - 64) := by
  unfold Alcanza
  omega

theorem Alcanza.lee {k n posicion : ℕ} (hk : k ≠ 0) (h : posicion < 64) (hn : 0 < n)
    (hsuma : posicion + n < 2147483648) :
    Alcanza (k + 1) n posicion ↔ Alcanza k (n - min n (64 - posicion)) 0 := by
  unfold Alcanza
  omega

section Recorrer
variable {d : Disco}

theorem recorrerBloques_paso {r r' : Recorrido} {s s' : Accesos} {fuel : ℕ}
    (hr : 0 < r.bytesALeer) (hpaso : recorrerBloque d r s = (some r', s')) :
    recorrerBloques d (fuel + 1) r s = recorrerBloques d fuel r' s' := by
  rw [recorrerBloques, Op.whileDo, if_pos (by simp [hr]), Op.bind_some hpaso]
  rfl

theorem recorrerBloques_cae {r : Recorrido} {s : Accesos}
    (hr : 0 < r.bytesALeer ∨ r.bloqueALeer = uint32Max) (hpaso : (recorrerBloque d r s).1 = none) :
    ∀ fuel, (recorrerBloques d fuel r s).1 = none
  | 0 => by
    rw [recorrerBloques, Op.whileDo, if_pos (decide_eq_true hr), Op.abort_apply]
  | fuel + 1 => by
    have hnone : recorrerBloque d r s = (none, (recorrerBloque d r s).2) := Prod.ext hpaso rfl
    rw [recorrerBloques, Op.whileDo, if_pos (decide_eq_true hr), Op.bind_none hnone]

theorem recorrerBloques_para {r : Recorrido} (hn : r.bytesALeer ≤ 0)
    (hb : r.bloqueALeer ≠ uint32Max) (s : Accesos) :
    ∀ fuel, recorrerBloques d fuel r s = (some r, s)
  | 0 => by simp [recorrerBloques, Op.whileDo, hb, not_lt.mpr hn]
  | fuel + 1 => by simp [recorrerBloques, Op.whileDo, hb, not_lt.mpr hn]

/-- The loop along a chain that is long enough. The induction is on the chain. -/
theorem recorrerBloques_alcanza {ys : List ℕ} :
    ∀ (b n pos leidos fuel : ℕ) (archivo : List UInt8) (s : Accesos),
      Chain d.asignaciones uint32Max b ys → (∀ y ∈ ys, y < d.header.dataBlocks) → ys ≠ [] →
      Alcanza ys.length n pos → n + pos ≤ fuel → leidos + n < 2147483648 →
      ∃ r indices, recorrerBloques d fuel ⟨b, n, pos, archivo, leidos⟩ s =
          (some r, ⟨s.posiciones ++ (bloquesDelRango ys n pos).map (posicionDeBloque d),
            s.indices ++ indices⟩) ∧
        (∀ i ∈ indices, i < d.header.dataBlocks) ∧ r.bytesLeidos = leidos + n ∧
        ((∀ y ∈ bloquesDelRango ys n pos, posicionDeBloque d y = (d.inicio + y) * 64) →
          r.archivo = archivo ++ ((contenido d ys).drop pos).take n) := by
  induction ys with
  | nil =>
    intro b n pos leidos fuel archivo s _ _ hne
    exact absurd rfl hne
  | cons y ys ih =>
    intro b n pos leidos fuel archivo s hc hlt _ halc hfuel hle
    have hby : b = y := hc.head_eq
    subst hby
    have hmark : b ≠ uint32Max := fun he => hc.stop_not_mem (he ▸ List.mem_cons_self)
    have hb : b < d.header.dataBlocks := hlt b List.mem_cons_self
    have hlt' : ∀ y ∈ ys, y < d.header.dataBlocks := fun y hy => hlt y (List.mem_cons_of_mem b hy)
    have hc' : Chain d.asignaciones uint32Max (d.asignaciones b) ys := hc.tail
    by_cases hn : n = 0
    · subst hn
      refine ⟨⟨b, 0, pos, archivo, leidos⟩, [], ?_, by simp, rfl, by simp⟩
      simpa [bloquesDelRango_cero] using
        recorrerBloques_para (d := d) (r := ⟨b, 0, pos, archivo, leidos⟩) le_rfl hmark s fuel
    have hpos : 0 < n := by omega
    obtain ⟨fuel, rfl⟩ : ∃ f, fuel = f + 1 := ⟨fuel - 1, by omega⟩
    have hlen : (b :: ys).length = ys.length + 1 := rfl
    rw [hlen] at halc
    rcases Nat.lt_or_ge pos 64 with hp | hp
    · have hsuma : pos + n < 2147483648 := by
        unfold Alcanza at halc
        omega
      have hne : ys ≠ [] := by
        intro he
        unfold Alcanza at halc
        simp only [he, List.length_nil] at halc
        omega
      rw [Alcanza.lee (by simpa using hne) hp hpos hsuma] at halc
      rw [recorrerBloques_paso (by simpa using hpos)
        (recorrerBloque_lee hb hp hsuma (by omega)), bloquesDelRango_lee hpos hp]
      obtain ⟨r, indices, hrun, hind, hleidos, harch⟩ :=
        ih (d.asignaciones b) (n - min n (64 - pos)) 0 (leidos + min n (64 - pos)) fuel
          (archivo ++ ((bytesEn d (posicionDeBloque d b)).drop pos).take n)
          ⟨s.posiciones ++ [posicionDeBloque d b], s.indices ++ [b]⟩ hc' hlt' hne halc
          (by omega) (by omega)
      refine ⟨r, b :: indices, ?_, ?_, by omega, ?_⟩
      · rw [hrun]
        simp
      · intro i hi
        cases List.mem_cons.mp hi with
        | inl he => exact he ▸ hb
        | inr hmem => exact hind i hmem
      · intro hexactas
        have hres := harch fun y hy => hexactas y (List.mem_cons_of_mem b hy)
        have hesta := hexactas b List.mem_cons_self
        rw [hres, contenido_lee n hp, hesta, List.drop_zero, List.append_assoc]
    · have hne : ys ≠ [] := by
        intro he
        unfold Alcanza at halc
        simp only [he, List.length_nil] at halc
        omega
      rw [Alcanza.salta hp hpos] at halc
      rw [recorrerBloques_paso (by simpa using hpos) (recorrerBloque_salta hb hp),
        bloquesDelRango_salta hp, contenido_salta hp]
      obtain ⟨r, indices, hrun, hind, hleidos, harch⟩ :=
        ih (d.asignaciones b) n (pos - 64) leidos fuel archivo ⟨s.posiciones, s.indices ++ [b]⟩
          hc' hlt' hne halc (by omega) hle
      refine ⟨r, b :: indices, ?_, ?_, hleidos, harch⟩
      · rw [hrun]
        simp
      · intro i hi
        cases List.mem_cons.mp hi with
        | inl he => exact he ▸ hb
        | inr hmem => exact hind i hmem

/-- Along one that is not, it comes to the end mark or to a copy that does not fit. -/
theorem recorrerBloques_no_alcanza (hd : d.header.dataBlocks ≤ uint32Max) {ys : List ℕ} :
    ∀ {b n pos leidos : ℕ} {archivo : List UInt8} {s : Accesos} (fuel : ℕ),
      Chain d.asignaciones uint32Max b ys → (∀ y ∈ ys, y < d.header.dataBlocks) →
      (ys = [] ∨ ¬ Alcanza ys.length n pos) → leidos + n < 2147483648 →
      (recorrerBloques d fuel ⟨b, n, pos, archivo, leidos⟩ s).1 = none := by
  induction ys with
  | nil =>
    intro b n pos leidos archivo s fuel hc _ _ _
    have hb : b = uint32Max := hc.eq_nil_iff.mp rfl
    exact recorrerBloques_cae (.inr hb) (recorrerBloque_fin hd hb s) fuel
  | cons y ys ih =>
    intro b n pos leidos archivo s fuel hc hlt hno hle
    have hby : b = y := hc.head_eq
    subst hby
    have hb : b < d.header.dataBlocks := hlt b List.mem_cons_self
    have hlt' : ∀ y ∈ ys, y < d.header.dataBlocks := fun y hy => hlt y (List.mem_cons_of_mem b hy)
    have hc' : Chain d.asignaciones uint32Max (d.asignaciones b) ys := hc.tail
    have hna : ¬ Alcanza (ys.length + 1) n pos := by simpa using hno
    have hpos : 0 < n := Nat.pos_of_ne_zero fun he => hna (.inl he)
    have hcond : 0 < (n : ℤ) := by omega
    cases fuel with
    | zero => simp [recorrerBloques, Op.whileDo, hpos]
    | succ fuel =>
      rcases Nat.lt_or_ge pos 64 with hp | hp
      · rcases Nat.lt_or_ge (pos + n) 2147483648 with hsuma | hsuma
        · rw [recorrerBloques_paso (by simpa using hpos)
            (recorrerBloque_lee hb hp hsuma (by omega))]
          apply ih fuel hc' hlt' ?_ (by omega)
          by_cases hne : ys = []
          · exact .inl hne
          · rw [Alcanza.lee (by simpa using hne) hp hpos hsuma] at hna
            exact .inr hna
        · exact recorrerBloques_cae (.inl hcond) (recorrerBloque_desborda hp (by omega) hsuma) _
      · rw [recorrerBloques_paso (by simpa using hpos) (recorrerBloque_salta hb hp)]
        rw [Alcanza.salta hp hpos] at hna
        exact ih fuel hc' hlt' (.inr hna) hle

end Recorrer

/-! ## Reads -/

theorem posicionDeBloque_iff {d : Disco} {b : ℕ} :
    posicionDeBloque d b = (d.inicio + b) * 64 ↔ (d.inicio + b) * 64 < 4294967296 := by
  unfold posicionDeBloque u32
  omega

theorem recortar_eq {fileSize n posicion : ℕ} (hf : fileSize ≤ uint32Max) (hn : n < 2147483648)
    (hpos : posicion < 2147483648) :
    recortar fileSize n posicion = min (n : ℤ) (fileSize - posicion) := by
  unfold uint32Max at hf
  have hsuma : u32 ((n : ℤ) + posicion) = n + posicion := by
    rw [← Nat.cast_add]
    exact u32_natCast_of_lt (by omega)
  unfold recortar
  rw [hsuma]
  split
  · rw [i32_of_range (by omega) (by omega)]
    omega
  · omega

section Lecturas
variable {d : Disco} {e : OsadaFile} {xs : List ℕ} {n posicion : ℕ}

theorem rango_eq : rango d e.fileSize xs n posicion =
    ((contenido d xs).drop posicion).take (largoRango e.fileSize n posicion) := by
  unfold rango largoRango
  rw [List.drop_take, List.take_take]

theorem CadenaDe.length_rango (h : CadenaDe d e xs) :
    (rango d e.fileSize xs n posicion).length = largoRango e.fileSize n posicion := by
  have halc := h.alcanza
  unfold bloquesPara at halc
  unfold rango largoRango
  simp only [List.length_take, List.length_drop, length_contenido]
  omega

/-- The loop of a read, when there are bytes in the range and when there are none. -/
theorem recorrido_inicial (hf : e.fileSize ≤ uint32Max) (hn : n < 2147483648)
    (hpos : posicion < 2147483648) :
    recortar e.fileSize n posicion = largoRango e.fileSize n posicion ∨
      recortar e.fileSize n posicion ≤ 0 ∧ largoRango e.fileSize n posicion = 0 := by
  rw [recortar_eq hf hn hpos]
  unfold largoRango
  omega

theorem CadenaDe.lee (h : CadenaDe d e xs) (hn : n < 2147483648) (hpos : posicion < 2147483648)
    (hne : xs ≠ []) (halc : Alcanza xs.length (largoRango e.fileSize n posicion) posicion) :
    ∃ archivo indices, obtenerArchivoInterna d e n posicion ⟨[], []⟩ =
        (some (archivo, largoRango e.fileSize n posicion),
          ⟨(bloquesDelRango xs (largoRango e.fileSize n posicion) posicion).map
            (posicionDeBloque d), indices⟩) ∧
      (∀ i ∈ indices, i < d.header.dataBlocks) ∧
      ((∀ b ∈ bloquesDelRango xs (largoRango e.fileSize n posicion) posicion,
          posicionDeBloque d b = (d.inicio + b) * 64) →
        archivo = rango d e.fileSize xs n posicion) := by
  cases recorrido_inicial h.fileSize hn hpos with
  | inl hrec =>
    have hm : largoRango e.fileSize n posicion ≤ n := Nat.min_le_left _ _
    obtain ⟨r, indices, hrun, hind, hleidos, harch⟩ :=
      recorrerBloques_alcanza _ _ _ 0 (n + posicion + 1) [] ⟨[], []⟩ h.cadena h.enRango hne halc
        (by omega) (by omega)
    refine ⟨r.archivo, indices, ?_, hind, ?_⟩
    · unfold obtenerArchivoInterna
      rw [hrec, Int.toNat_natCast, Int.toNat_natCast, Op.bind_some hrun, hleidos]
      simp
    · intro hexactas
      rw [harch hexactas, List.nil_append, rango_eq]
  | inr hnada =>
    have hmark : e.firstBlock ≠ uint32Max := fun he => hne (h.cadena.eq_nil_iff.mpr he)
    refine ⟨[], [], ?_, by simp, ?_⟩
    · unfold obtenerArchivoInterna
      rw [Op.bind_some (recorrerBloques_para hnada.1 hmark _ _), hnada.2, bloquesDelRango_cero]
      rfl
    · intro _
      rw [rango_eq, hnada.2, List.take_zero]

/-- A read that goes as far as the end of the chain does not come back. -/
theorem CadenaDe.cae (h : CadenaDe d e xs) (hn : n < 2147483648) (hpos : posicion < 2147483648)
    (hno : xs = [] ∨ ¬ Alcanza xs.length (largoRango e.fileSize n posicion) posicion) :
    (obtenerArchivoInterna d e n posicion ⟨[], []⟩).1 = none := by
  have hm : largoRango e.fileSize n posicion ≤ n := Nat.min_le_left _ _
  have hcae : (recorrerBloques d (n + posicion + 1) ⟨e.firstBlock,
      recortar e.fileSize n posicion, posicion, [], 0⟩ ⟨[], []⟩).1 = none := by
    cases recorrido_inicial h.fileSize hn hpos with
    | inl hrec =>
      rw [hrec]
      exact recorrerBloques_no_alcanza h.dataBlocks _ h.cadena h.enRango hno (by omega)
    | inr hnada =>
      have hnil : xs = [] := hno.resolve_right fun hna => hna (.inl hnada.2)
      have hmark : e.firstBlock = uint32Max := h.cadena.eq_nil_iff.mp hnil
      exact recorrerBloques_cae (.inr hmark) (recorrerBloque_fin h.dataBlocks hmark _) _
  unfold obtenerArchivoInterna
  rw [Int.toNat_natCast, Int.toNat_natCast, Op.bind_none (Prod.ext hcae rfl)]

end Lecturas

/-- A read does its work exactly when the chain goes on after the range. -/
theorem leeBien_iff {d : Disco} (h : Encadenado d) {i : ℕ} (hi : i < 2048)
    (hr : (d.archivos i).state = .regular) {xs : List ℕ}
    (hc : Chain d.asignaciones uint32Max (d.archivos i).firstBlock xs) {n posicion : ℕ}
    (hn : n < 2147483648) (hpos : posicion < 2147483648) :
    LeeBien d (d.archivos i) xs n posicion ↔ HayOtroBloque d (d.archivos i) xs n posicion := by
  obtain ⟨ys, hys⟩ := h i hi hr
  obtain rfl := hys.cadena.unique hc
  by_cases hva : ys ≠ [] ∧
      Alcanza ys.length (largoRango (d.archivos i).fileSize n posicion) posicion
  · obtain ⟨archivo, indices, hrun, hind, harch⟩ := hys.lee hn hpos hva.1 hva.2
    constructor
    · intro hbien
      obtain ⟨accesos, hrun', _, hpos'⟩ := hbien
      rw [hrun] at hrun'
      obtain ⟨_, rfl⟩ := Op.some_inj hrun'
      refine ⟨hva.1, hva.2, ?_⟩
      intro b hb
      exact posicionDeBloque_iff.mp (List.map_inj_left.mp hpos' b hb)
    · intro hotro
      have hexactas := fun b hb => posicionDeBloque_iff.mpr (hotro.2.2 b hb)
      refine ⟨⟨_, indices⟩, ?_, hind, List.map_inj_left.mpr hexactas⟩
      rw [hrun, harch hexactas, hys.length_rango]
  · have hno : ys = [] ∨
        ¬ Alcanza ys.length (largoRango (d.archivos i).fileSize n posicion) posicion := by
      by_cases hnil : ys = []
      · exact .inl hnil
      · exact .inr fun halc => hva ⟨hnil, halc⟩
    have hcae := hys.cae hn hpos hno
    constructor
    · intro hbien
      obtain ⟨_, hrun, _⟩ := hbien
      simp [hrun] at hcae
    · intro hotro
      exact absurd ⟨hotro.1, hotro.2.1⟩ hva

/-! ## Two files of ten bytes -/

/-- The file of slot 0 has a block more than it needs, that of slot 1 has not. -/
def discoConArchivos : Disco :=
  { discoChico with
    bitmap := fun i => primerosBits (discoChico.inicio + 3 - i * 8)
    archivos := fun i =>
      if i < 2 then
        { state := .regular, fname := [97 + UInt8.ofNat i], fileSize := 10,
          parentDirectory := 65535, lastmod := 0, firstBlock := 2 * i }
      else .borrado
    asignaciones := fun b => if b = 0 then 1 else uint32Max }

theorem cadena_holgada : CadenaDe discoConArchivos (discoConArchivos.archivos 0) [0, 1] where
  cadena := .cons (by decide) (.cons (by decide) .nil)
  enRango := by decide
  alcanza := by decide
  dataBlocks := by decide
  fileSize := by decide

theorem cadena_justa : CadenaDe discoConArchivos (discoConArchivos.archivos 1) [2] where
  cadena := .cons (by decide) .nil
  enRango := by decide
  alcanza := by decide
  dataBlocks := by decide
  fileSize := by decide

theorem encadenado_discoConArchivos : Encadenado discoConArchivos := by
  intro i _ hr
  rcases Nat.lt_or_ge i 2 with hlt | hge
  · have hcases : i = 0 ∨ i = 1 := by omega
    cases hcases with
    | inl h0 => exact h0 ▸ ⟨_, cadena_holgada⟩
    | inr h1 => exact h1 ▸ ⟨_, cadena_justa⟩
  · have hno : ¬ i < 2 := not_lt.mpr hge
    simp only [discoConArchivos, if_neg hno, OsadaFile.borrado] at hr
    exact absurd hr (by decide)

theorem leeBien_holgada :
    LeeBien discoConArchivos (discoConArchivos.archivos 0) [0, 1] 10 0 ↔
      HayOtroBloque discoConArchivos (discoConArchivos.archivos 0) [0, 1] 10 0 :=
  leeBien_iff encadenado_discoConArchivos (by decide) (by decide) cadena_holgada.cadena
    (by decide) (by decide)

/-- The ten bytes of a file of one block are not read. -/
theorem no_toda_lectura_vuelve : ¬ ∀ d : Disco, Encadenado d → ∀ i < 2048,
    (d.archivos i).state = .regular → ∀ xs : List ℕ,
    Chain d.asignaciones uint32Max (d.archivos i).firstBlock xs → ∀ n < 2147483648,
    ∀ posicion < 2147483648, LeeBien d (d.archivos i) xs n posicion := by
  intro hall
  obtain ⟨_, hrun, _⟩ := hall discoConArchivos encadenado_discoConArchivos 1 (by decide)
    (by decide) [2] cadena_justa.cadena 10 (by decide) 0 (by decide)
  have hno : ¬ Alcanza 1 (largoRango 10 10 0) 0 := by
    unfold Alcanza largoRango
    decide
  have hcae := cadena_justa.cae (by decide) (by decide) (.inr hno)
  rw [hrun] at hcae
  cases hcae

end TpSo.Osada
