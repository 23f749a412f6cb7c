import TpSo.Base.Run
import TpSo.Osada.Formateo

/-!
# The caches of the header and of the bitmap

`leerHeaderOsada` and `obtenerBitmap` read the disk once and keep what they read. Both set the cache
before they know that the read worked, and look only for `NULL` afterwards: a header that was not
read whole stays in its cache, and the bitmap's cache keeps the address of memory that is free.

Here `fseek`, `fread` and `fwrite` may fail in any call. A file that could not be opened ends the
process at its first `fseek`; there is no call with one. The calls come one after another, so the
lock of the bitmap and `muteado`, which says who takes it, are left out.

`obtenerBitmap_refleja` is what lets `Pokedex` have one bitmap and no cache: served in order, the
bitmap is the one that the edits of `Pokedex` leave.
-/

namespace TpSo.Osada.Cache

/-- Where a cache points to. A byte of `malloc` has no value before it is written. -/
inductive Puntero where
  | nulo
  | a (bytes : List (Option UInt8))
  | liberado
  deriving DecidableEq

/-- The file as a call finds it: where it stands, whether `fseek` works on it, and how many bytes go
through before `fread` or `fwrite` fails. -/
structure Fichero where
  posicion : ℕ
  fseek : Bool
  alcanza : ℕ
  deriving DecidableEq

/-- Where the file stands after `fseek`. -/
def Fichero.tras (f : Fichero) (desde : ℕ) : ℕ := if f.fseek then desde else f.posicion

/-- What `fread` puts in memory, of `n` bytes. -/
def Fichero.fread (f : Fichero) (disco : List UInt8) (posicion n : ℕ) : List UInt8 :=
  ((disco.drop posicion).take n).take f.alcanza

/-- `fwrite` of one byte; a gap before it is filled with zeros. -/
def fwrite (disco : List UInt8) (posicion : ℕ) (valor : UInt8) : List UInt8 :=
  if posicion < disco.length then disco.set posicion valor
  else disco ++ List.replicate (posicion - disco.length) 0 ++ [valor]

/-- Memory of `malloc` with the first bytes written. -/
def malloc (tamanio : ℕ) (leido : List UInt8) : List (Option UInt8) :=
  leido.map some ++ List.replicate (tamanio - leido.length) none

/-- `puntero[i]`; `basura` is what memory gives where it has no value of ours. -/
def Puntero.leer : Puntero → ℕ → UInt8 → UInt8
  | a bytes, i, basura => (bytes[i]?.join).getD basura
  | nulo, _, basura | liberado, _, basura => basura

/-- `puntero[i] = valor`; what goes anywhere else is not seen from here. -/
def Puntero.escribir : Puntero → ℕ → UInt8 → Puntero
  | a bytes, i, valor => a (bytes.set i (some valor))
  | nulo, _, _ => nulo
  | liberado, _, _ => liberado

structure Estado where
  disco : List UInt8
  headerSingleton : Puntero
  punteroBitmapSingleton : Puntero
  deriving DecidableEq

def inicio (disco : List UInt8) : Estado := ⟨disco, .nulo, .nulo⟩

/-- The result of `fseek` is not looked at. -/
def leerHeaderOsada (fichero : Fichero) : Op Estado Puntero := fun s =>
  match s.headerSingleton with
  | .nulo =>
    let leido := fichero.fread s.disco (fichero.tras 0) 64
    let puntero := Puntero.a (malloc 64 leido)
    (some (if leido.length = 64 then puntero else .nulo), { s with headerSingleton := puntero })
  | puntero => (some puntero, s)

def obtenerBitmap (fs : Fichero) (header : OsadaHeader) : Op Estado Puntero := fun s =>
  match s.punteroBitmapSingleton with
  | .nulo =>
    let tamanio := tamanioBitMapEnBytes header
    let leido := fs.fread s.disco 64 tamanio
    if fs.fseek = true ∧ leido.length = tamanio then
      let puntero := Puntero.a (malloc tamanio leido)
      (some puntero, { s with punteroBitmapSingleton := puntero })
    else (some .nulo, { s with punteroBitmapSingleton := .liberado })
  | puntero => (some puntero, s)

/-- The byte goes to the disk and then to the cache. -/
def Estado.escribirByte (s : Estado) (numeroByte : ℕ) (valor : UInt8) : Estado :=
  { s with
    disco := fwrite s.disco (64 + numeroByte) valor
    punteroBitmapSingleton := s.punteroBitmapSingleton.escribir numeroByte valor }

/-- `carga` is the file for the load of the bitmap, `escritura` for the write. A null bitmap is read
without a look. -/
def editarBloqueEnBitmap (carga escritura : Fichero) (basura : UInt8) (header : OsadaHeader)
    (nBloque : ℕ) (ocupado : Bool) : Op Estado ℤ := do
  let k := u32 (nBloque + obtenerInicioTablaBloques header)
  let bitmap ← obtenerBitmap carga header
  if bitmap = .nulo then Op.abort
  else do
    let byteAModificar := conBit (bitmap.leer (k / 8) basura) (k - k / 8 * 8) ocupado
    if escritura.fseek = true ∧ 1 ≤ escritura.alcanza then do
      Op.modify fun s => s.escribirByte (k / 8) byteAModificar
      pure 0
    else pure (-1)

/-! ## Sequences of calls -/

inductive Llamada where
  | leerHeaderOsada (fichero : Fichero)
  | obtenerBitmap (fs : Fichero)
  | editarBloqueEnBitmap (carga escritura : Fichero) (basura : UInt8) (nBloque : ℕ) (ocupado : Bool)
  deriving DecidableEq

inductive Devuelto where
  | puntero (p : Puntero)
  | entero (r : ℤ)
  deriving DecidableEq

def Llamada.ejecutar (header : OsadaHeader) : Llamada → Op Estado Devuelto
  | leerHeaderOsada fichero => do
    let p ← Cache.leerHeaderOsada fichero
    pure (.puntero p)
  | obtenerBitmap fs => do
    let p ← Cache.obtenerBitmap fs header
    pure (.puntero p)
  | editarBloqueEnBitmap carga escritura basura nBloque ocupado => do
    let r ← Cache.editarBloqueEnBitmap carga escritura basura header nBloque ocupado
    pure (.entero r)

/-- A call that comes back, with what it returns. All of them are given one header, which nothing
changes once it is in memory. -/
def Paso (header : OsadaHeader) (s : Estado) (e : Llamada × Devuelto) (s' : Estado) : Prop :=
  e.1.ejecutar header s = (some e.2, s')

def edicion (header : OsadaHeader) : Llamada × Devuelto → Option (ℕ × Bool)
  | (.editarBloqueEnBitmap _ _ _ nBloque ocupado, .entero r) =>
    if r = 0 then some (u32 (nBloque + obtenerInicioTablaBloques header), ocupado) else none
  | _ => none

def ediciones (header : OsadaHeader) (es : List (Llamada × Devuelto)) : List (ℕ × Bool) :=
  es.filterMap (edicion header)

def conEdicion (bitmap : List UInt8) (e : ℕ × Bool) : List UInt8 :=
  bitmap.set (e.1 / 8) (conBit (bitmap.getD (e.1 / 8) 0) (e.1 - e.1 / 8 * 8) e.2)

def bitmapDe (header : OsadaHeader) (disco : List UInt8) : List UInt8 :=
  (disco.drop 64).take (tamanioBitMapEnBytes header)

/-- The bitmap read from the disk with the edits made since. -/
def bitmapCon (header : OsadaHeader) (disco : List UInt8) (antes : List (Llamada × Devuelto)) :
    List UInt8 :=
  (ediciones header antes).foldl conEdicion (bitmapDe header disco)

/-- A pointer that is not null holds the bytes. -/
def Puntero.Tiene (p : Puntero) (bytes : List UInt8) : Prop := p ≠ nulo → p = a (bytes.map some)

/-- What a call is to be relied on for: the header or the bitmap, and for an edit the bitmap it works
on, which a failed write leaves alone. `disco` is the one the process starts on. -/
def Fiel (header : OsadaHeader) (disco : List UInt8) (antes : List (Llamada × Devuelto))
    (s : Estado) (e : Llamada × Devuelto) (s' : Estado) : Prop :=
  match e with
  | (.leerHeaderOsada _, r) => ∀ p, r = .puntero p → p.Tiene (s.disco.take 64)
  | (.obtenerBitmap _, r) => ∀ p, r = .puntero p → p.Tiene (bitmapCon header disco antes)
  | (.editarBloqueEnBitmap carga _ _ _ _, r) =>
    ∀ p, (obtenerBitmap carga header s).1 = some p → p.Tiene (bitmapCon header disco antes) ∧
      (r ≠ .entero 0 → s'.punteroBitmapSingleton = p)

/-- No failed load is behind the cache, and the header is not loaded from somewhere else. -/
def EnRegla (s : Estado) : Llamada → Prop
  | .leerHeaderOsada f =>
    match s.headerSingleton with
    | .nulo => f.fseek = true ∨ (f.fread s.disco f.posicion 64).length < 64 ∨
      (s.disco.drop f.posicion).take 64 = s.disco.take 64
    | .a bytes => none ∉ bytes
    | .liberado => False
  | .obtenerBitmap _ | .editarBloqueEnBitmap _ _ _ _ _ => s.punteroBitmapSingleton ≠ .liberado

/-! ## Reads and writes -/

section Fichero
variable {f : Fichero} {disco leido : List UInt8} {posicion n i : ℕ} {valor : UInt8}

theorem length_fread_le : (f.fread disco posicion n).length ≤ n := by
  simp only [Fichero.fread, List.length_take]
  omega

theorem fread_of_length (h : (f.fread disco posicion n).length = n) :
    f.fread disco posicion n = (disco.drop posicion).take n := by
  apply List.take_of_length_le
  simp only [Fichero.fread, List.length_take] at h ⊢
  omega

theorem malloc_of_length (h : leido.length = n) : malloc n leido = leido.map some := by
  simp [malloc, h]

theorem none_mem_malloc (h : leido.length < n) : none ∈ malloc n leido := by
  refine List.mem_append_right _ (List.mem_replicate.mpr ⟨?_, rfl⟩)
  omega

theorem none_not_mem_map : none ∉ leido.map some := by simp

theorem length_le_fwrite : disco.length ≤ (fwrite disco posicion valor).length := by
  unfold fwrite
  split
  · rw [List.length_set]
  · simp only [List.length_append]
    omega

theorem take_fwrite (h : n ≤ disco.length) (hpos : n ≤ posicion) :
    (fwrite disco posicion valor).take n = disco.take n := by
  unfold fwrite
  split
  · rw [List.take_set_of_le hpos]
  · rw [List.append_assoc, List.take_append_of_le_length h]

theorem take_drop_fwrite (h : ((disco.drop posicion).take n).length = n) :
    ((fwrite disco (posicion + i) valor).drop posicion).take n =
      ((disco.drop posicion).take n).set i valor := by
  have hlargo : n ≤ disco.length - posicion := by
    rw [List.length_take, List.length_drop] at h
    omega
  unfold fwrite
  split
  · rw [List.drop_set, if_neg (by omega), Nat.add_sub_cancel_left, List.take_set]
  · rw [List.set_eq_of_length_le (by omega), List.append_assoc]
    rcases Nat.eq_zero_or_pos n with rfl | hn
    · simp
    · rw [List.drop_append_of_le_length (by omega),
        List.take_append_of_le_length (by rw [List.length_drop]; exact hlargo)]

end Fichero

/-! ## One call -/

section Llamadas
variable {header : OsadaHeader} {s s' : Estado} {p : Puntero}

theorem leerHeaderOsada_cases {f : Fichero} (h : leerHeaderOsada f s = (some p, s')) :
    (s.headerSingleton = .nulo ∧ (f.fread s.disco (f.tras 0) 64).length = 64 ∧
      p = .a (((s.disco.drop (f.tras 0)).take 64).map some) ∧
      s' = { s with headerSingleton := p }) ∨
    (s.headerSingleton = .nulo ∧ (f.fread s.disco (f.tras 0) 64).length < 64 ∧ p = .nulo ∧
      ∃ bytes, none ∈ bytes ∧ s' = { s with headerSingleton := .a bytes }) ∨
    (s.headerSingleton ≠ .nulo ∧ p = s.headerSingleton ∧ s' = s) := by
  unfold leerHeaderOsada at h
  split at h
  · next hnulo =>
    obtain ⟨rfl, rfl⟩ := Op.some_inj h
    by_cases hentero : (f.fread s.disco (f.tras 0) 64).length = 64
    · rw [if_pos hentero, malloc_of_length hentero, fread_of_length hentero]
      exact .inl ⟨hnulo, by rw [← fread_of_length hentero, hentero], rfl, rfl⟩
    · have hcorto := Nat.lt_of_le_of_ne length_fread_le hentero
      rw [if_neg hentero]
      exact .inr (.inl ⟨hnulo, hcorto, rfl, _, none_mem_malloc hcorto, rfl⟩)
  · next hno =>
    obtain ⟨rfl, rfl⟩ := Op.some_inj h
    exact .inr (.inr ⟨hno, rfl, rfl⟩)

/-- What a call of `obtenerBitmap` does. It always comes back. -/
theorem obtenerBitmap_cases (fs : Fichero) (header : OsadaHeader) (s : Estado) :
    (s.punteroBitmapSingleton = .nulo ∧
      (bitmapDe header s.disco).length = tamanioBitMapEnBytes header ∧
      obtenerBitmap fs header s = (some (.a ((bitmapDe header s.disco).map some)),
        { s with punteroBitmapSingleton := .a ((bitmapDe header s.disco).map some) })) ∨
    (s.punteroBitmapSingleton = .nulo ∧
      obtenerBitmap fs header s = (some .nulo, { s with punteroBitmapSingleton := .liberado })) ∨
    (s.punteroBitmapSingleton ≠ .nulo ∧
      obtenerBitmap fs header s = (some s.punteroBitmapSingleton, s)) := by
  unfold obtenerBitmap
  split
  · next hnulo =>
    dsimp only
    split
    · next hentero =>
      have hleido := fread_of_length hentero.2
      have hlargo := hentero.2
      rw [malloc_of_length hlargo]
      rw [hleido] at hlargo ⊢
      exact .inl ⟨hnulo, hlargo, rfl⟩
    · exact .inr (.inl ⟨hnulo, rfl⟩)
  · next hno => exact .inr (.inr ⟨hno, rfl⟩)

/-- What a call of `editarBloqueEnBitmap` that comes back does once it has the bitmap. -/
theorem editarBloqueEnBitmap_cases {carga escritura : Fichero} {basura : UInt8} {nBloque : ℕ}
    {ocupado : Bool} {r : ℤ}
    (h : editarBloqueEnBitmap carga escritura basura header nBloque ocupado s = (some r, s')) :
    ∃ p s₁, obtenerBitmap carga header s = (some p, s₁) ∧ p ≠ .nulo ∧
      ((r = 0 ∧ ∃ k, k = u32 (nBloque + obtenerInicioTablaBloques header) ∧
          s' = s₁.escribirByte (k / 8) (conBit (p.leer (k / 8) basura) (k - k / 8 * 8) ocupado)) ∨
        (r = -1 ∧ s' = s₁)) := by
  obtain ⟨p, s₁, hbitmap, -⟩ := Op.of_bind (congrArg Prod.fst h)
  rw [editarBloqueEnBitmap, Op.bind_some hbitmap] at h
  by_cases hnulo : p = .nulo
  · rw [if_pos hnulo] at h
    cases h
  · refine ⟨p, s₁, hbitmap, hnulo, ?_⟩
    rw [if_neg hnulo] at h
    split at h
    · obtain ⟨rfl, rfl⟩ := Op.some_inj h
      exact .inl ⟨rfl, _, rfl, rfl⟩
    · obtain ⟨rfl, rfl⟩ := Op.some_inj h
      exact .inr ⟨rfl, rfl⟩

end Llamadas

/-! ## Along a sequence of calls -/

/-- The bitmap is in its cache, as the disk has it. -/
structure Cargado (header : OsadaHeader) (bitmap : List UInt8) (s : Estado) : Prop where
  largo : bitmap.length = tamanioBitMapEnBytes header
  disco : bitmapDe header s.disco = bitmap
  cache : s.punteroBitmapSingleton = .a (bitmap.map some)

/-- What the caches hold after the calls `antes`, as long as no failed load has been served. -/
structure Vigente (header : OsadaHeader) (disco : List UInt8) (antes : List (Llamada × Devuelto))
    (s : Estado) : Prop where
  cacheHeader : s.headerSingleton = .nulo ∨
    (∃ bytes, s.headerSingleton = .a bytes ∧ none ∈ bytes) ∨
    (64 ≤ s.disco.length ∧ s.headerSingleton = .a ((s.disco.take 64).map some))
  cacheBitmap :
    (s.punteroBitmapSingleton = .nulo ∧ bitmapDe header s.disco = bitmapCon header disco antes) ∨
      s.punteroBitmapSingleton = .liberado ∨ Cargado header (bitmapCon header disco antes) s

section Sequence
variable {header : OsadaHeader} {disco : List UInt8} {antes : List (Llamada × Devuelto)}
  {s s' : Estado} {e : Llamada × Devuelto}

theorem bitmapCon_concat_none (h : edicion header e = none) :
    bitmapCon header disco (antes ++ [e]) = bitmapCon header disco antes := by
  rw [bitmapCon, ediciones, List.filterMap_append, List.filterMap_cons_none h, List.filterMap_nil,
    List.append_nil]
  rfl

theorem bitmapCon_concat_some {x : ℕ × Bool} (h : edicion header e = some x) :
    bitmapCon header disco (antes ++ [e]) = conEdicion (bitmapCon header disco antes) x := by
  rw [bitmapCon, ediciones, List.filterMap_append, List.filterMap_cons_some h, List.filterMap_nil,
    List.foldl_append]
  rfl

theorem vigente_inicio : Vigente header disco [] (inicio disco) := ⟨.inl rfl, .inl ⟨rfl, rfl⟩⟩

theorem Vigente.sinEdicion (h : Vigente header disco antes s) (he : edicion header e = none) :
    Vigente header disco (antes ++ [e]) s := by
  refine ⟨h.cacheHeader, ?_⟩
  rw [bitmapCon_concat_none he]
  exact h.cacheBitmap

/-- The bitmap that a call is given: none, that of the cache, or that of memory that is free. -/
theorem Vigente.obtenerBitmap (h : Vigente header disco antes s) {fs : Fichero} {p : Puntero}
    (hrun : Cache.obtenerBitmap fs header s = (some p, s')) :
    Vigente header disco antes s' ∧
      ((p = .nulo ∧ s.punteroBitmapSingleton ≠ .liberado) ∨
        (p = .liberado ∧ s.punteroBitmapSingleton = .liberado) ∨
        (p = s'.punteroBitmapSingleton ∧ Cargado header (bitmapCon header disco antes) s' ∧
          s.punteroBitmapSingleton ≠ .liberado)) := by
  rcases obtenerBitmap_cases fs header s with
    ⟨hnulo, hlargo, hcarga⟩ | ⟨hnulo, hfalla⟩ | ⟨hno, hcache⟩
  · obtain ⟨rfl, rfl⟩ := Op.some_inj (hcarga.symm.trans hrun)
    have hdisco : bitmapDe header s.disco = bitmapCon header disco antes := by
      rcases h.cacheBitmap with ⟨-, hdisco⟩ | hlib | hcargado
      · exact hdisco
      · rw [hnulo] at hlib
        cases hlib
      · exact hcargado.disco
    have hcargado : Cargado header (bitmapCon header disco antes)
        { s with punteroBitmapSingleton := .a ((bitmapDe header s.disco).map some) } :=
      ⟨by rw [← hdisco, hlargo], hdisco, by rw [hdisco]⟩
    exact ⟨⟨h.cacheHeader, .inr (.inr hcargado)⟩,
      .inr (.inr ⟨rfl, hcargado, by rw [hnulo]; simp⟩)⟩
  · obtain ⟨rfl, rfl⟩ := Op.some_inj (hfalla.symm.trans hrun)
    exact ⟨⟨h.cacheHeader, .inr (.inl rfl)⟩, .inl ⟨rfl, by rw [hnulo]; simp⟩⟩
  · obtain ⟨rfl, rfl⟩ := Op.some_inj (hcache.symm.trans hrun)
    refine ⟨h, ?_⟩
    rcases h.cacheBitmap with ⟨hnulo, -⟩ | hlib | hcargado
    · exact absurd hnulo hno
    · exact .inr (.inl ⟨hlib, hlib⟩)
    · exact .inr (.inr ⟨rfl, hcargado, by rw [hcargado.cache]; simp⟩)

/-- A byte of a loaded bitmap, written where it is and on the disk. -/
theorem Cargado.escribirByte {bitmap : List UInt8} (h : Cargado header bitmap s) (k : ℕ)
    (ocupado : Bool) (basura : UInt8) :
    Cargado header (conEdicion bitmap (k, ocupado)) (s.escribirByte (k / 8)
      (conBit (s.punteroBitmapSingleton.leer (k / 8) basura) (k - k / 8 * 8) ocupado)) := by
  obtain ⟨hlargo, hdisco, hcache⟩ := h
  have hvalor : bitmap.set (k / 8)
      (conBit (s.punteroBitmapSingleton.leer (k / 8) basura) (k - k / 8 * 8) ocupado) =
        conEdicion bitmap (k, ocupado) := by
    rcases Nat.lt_or_ge (k / 8) bitmap.length with hlt | hge
    · simp [hcache, Puntero.leer, conEdicion, hlt]
    · -- past the bitmap neither is changed
      rw [conEdicion, List.set_eq_of_length_le hge, List.set_eq_of_length_le hge]
  refine ⟨?_, ?_, ?_⟩
  · rw [conEdicion, List.length_set, hlargo]
  · rw [← hvalor, ← hdisco, bitmapDe, Estado.escribirByte]
    exact take_drop_fwrite (by rw [← bitmapDe, hdisco, hlargo])
  · rw [← hvalor, List.map_set]
    simp only [Estado.escribirByte, hcache, Puntero.escribir]

/-! ### The pointer of a call against the rule -/

theorem tiene_map {xs ys : List UInt8} : (Puntero.a (xs.map some)).Tiene ys ↔ xs = ys := by
  constructor
  · intro h
    have heq := Puntero.a.inj (h (by simp))
    exact List.map_injective_iff.mpr (Option.some_injective _) heq
  · rintro rfl _
    rfl

theorem tiene_nulo {ys : List UInt8} : Puntero.nulo.Tiene ys := fun h => absurd rfl h

theorem not_tiene_of_mem {bytes : List (Option UInt8)} {ys : List UInt8} (h : none ∈ bytes) :
    ¬ (Puntero.a bytes).Tiene ys := by
  intro htiene
  rw [Puntero.a.inj (htiene (by simp))] at h
  exact none_not_mem_map h

theorem not_tiene_liberado {ys : List UInt8} : ¬ Puntero.liberado.Tiene ys := by
  intro htiene
  cases htiene (by simp)

/-- The header is served as the disk has it in the calls that are in order, and only in them. -/
theorem Vigente.tiene_header (h : Vigente header disco antes s) {f : Fichero} {p : Puntero}
    (hrun : leerHeaderOsada f s = (some p, s')) :
    p.Tiene (s.disco.take 64) ↔ EnRegla s (.leerHeaderOsada f) := by
  rcases leerHeaderOsada_cases hrun with
    ⟨hnulo, hentero, rfl, -⟩ | ⟨hnulo, hcorto, rfl, -⟩ | ⟨hno, rfl, -⟩
  · rw [tiene_map, EnRegla, hnulo]
    cases hseek : f.fseek with
    | true => simp [Fichero.tras, hseek]
    | false =>
      simp only [Fichero.tras, hseek, Bool.false_eq_true, if_false] at hentero ⊢
      simp [hentero]
  · rw [EnRegla, hnulo]
    refine iff_of_true tiene_nulo ?_
    cases hseek : f.fseek with
    | true => exact .inl rfl
    | false => exact .inr (.inl (by simpa [Fichero.tras, hseek] using hcorto))
  · rcases h.cacheHeader with hnulo | ⟨bytes, hcache, hnone⟩ | ⟨-, hcache⟩
    · exact absurd hnulo hno
    · rw [EnRegla, hcache]
      exact iff_of_false (not_tiene_of_mem hnone) fun hregla => hregla hnone
    · rw [EnRegla, hcache]
      exact iff_of_true (tiene_map.mpr rfl) none_not_mem_map

/-- The bitmap does not mind what the header's cache holds. -/
theorem Vigente.conHeader (h : Vigente header disco antes s) {p : Puntero}
    (hp : (∃ bytes, p = .a bytes ∧ none ∈ bytes) ∨
      (64 ≤ s.disco.length ∧ p = .a ((s.disco.take 64).map some))) :
    Vigente header disco antes { s with headerSingleton := p } := by
  refine ⟨.inr hp, ?_⟩
  rcases h.cacheBitmap with hnulo | hlib | ⟨hlargo, hdisco, hcache⟩
  · exact .inl hnulo
  · exact .inr (.inl hlib)
  · exact .inr (.inr ⟨hlargo, hdisco, hcache⟩)

/-- A call of `leerHeaderOsada` in order leaves the caches in order. -/
theorem Vigente.leerHeaderOsada (h : Vigente header disco antes s) {f : Fichero} {p : Puntero}
    (hrun : Cache.leerHeaderOsada f s = (some p, s')) (hregla : EnRegla s (.leerHeaderOsada f)) :
    Vigente header disco antes s' := by
  have htiene := (h.tiene_header hrun).mpr hregla
  rcases leerHeaderOsada_cases hrun with
    ⟨-, hentero, rfl, rfl⟩ | ⟨-, -, -, bytes, hnone, rfl⟩ | ⟨-, -, rfl⟩
  · rw [tiene_map] at htiene
    rw [fread_of_length hentero, htiene, List.length_take] at hentero
    exact h.conHeader (.inr ⟨by omega, by rw [htiene]⟩)
  · exact h.conHeader (.inl ⟨bytes, rfl, hnone⟩)
  · exact h

/-- A write of the bitmap leaves the header's cache in order. -/
theorem Vigente.escribirByte (h : Vigente header disco antes s) {numeroByte : ℕ} {valor : UInt8}
    (hcarga : Cargado header (bitmapCon header disco (antes ++ [e]))
      (s.escribirByte numeroByte valor)) :
    Vigente header disco (antes ++ [e]) (s.escribirByte numeroByte valor) := by
  refine ⟨?_, .inr (.inr hcarga)⟩
  rcases h.cacheHeader with hnulo | hcorto | ⟨hlargo, hcache⟩
  · exact .inl hnulo
  · exact .inr (.inl hcorto)
  · refine .inr (.inr ⟨hlargo.trans length_le_fwrite, ?_⟩)
    rw [Estado.escribirByte, take_fwrite hlargo (by omega)]
    exact hcache

theorem Vigente.tiene_bitmap (h : Vigente header disco antes s) {fs : Fichero} {p : Puntero}
    (hrun : Cache.obtenerBitmap fs header s = (some p, s')) :
    p.Tiene (bitmapCon header disco antes) ↔ s.punteroBitmapSingleton ≠ .liberado := by
  rcases (h.obtenerBitmap hrun).2 with ⟨rfl, hno⟩ | ⟨rfl, hlib⟩ | ⟨rfl, hcargado, hno⟩
  · exact iff_of_true tiene_nulo hno
  · exact iff_of_false not_tiene_liberado fun hno => hno hlib
  · rw [hcargado.cache]
    exact iff_of_true (tiene_map.mpr rfl) hno

theorem Vigente.fiel_iff (h : Vigente header disco antes s) (he : Paso header s e s') :
    Fiel header disco antes s e s' ↔ EnRegla s e.1 := by
  obtain ⟨l, r⟩ := e
  cases l with
  | leerHeaderOsada f =>
    obtain ⟨p, hrun, rfl⟩ := Op.of_bind_pure he
    rw [← h.tiene_header hrun]
    simp [Fiel]
  | obtenerBitmap fs =>
    obtain ⟨p, hrun, rfl⟩ := Op.of_bind_pure he
    simp [Fiel, EnRegla, ← h.tiene_bitmap hrun]
  | editarBloqueEnBitmap carga escritura basura nBloque ocupado =>
    obtain ⟨r, hrun, rfl⟩ := Op.of_bind_pure he
    obtain ⟨p, s₁, hbitmap, hno, hfin⟩ := editarBloqueEnBitmap_cases hrun
    have htiene := h.tiene_bitmap hbitmap
    constructor
    · intro hfiel
      exact htiene.mp (hfiel p (congrArg Prod.fst hbitmap)).1
    · intro hregla p' hp'
      obtain rfl : p = p' := Option.some.inj ((congrArg Prod.fst hbitmap).symm.trans hp')
      refine ⟨htiene.mpr hregla, fun hr => ?_⟩
      rcases hfin with ⟨rfl, -⟩ | ⟨-, rfl⟩
      · exact absurd rfl hr
      · -- the write failed, and the cache is as `obtenerBitmap` left it
        rcases (h.obtenerBitmap hbitmap).2 with ⟨hnulo, -⟩ | ⟨-, hlib⟩ | ⟨hcache, -⟩
        · exact absurd hnulo hno
        · exact absurd hlib hregla
        · exact hcache.symm

theorem Vigente.paso (h : Vigente header disco antes s) (he : Paso header s e s')
    (hregla : EnRegla s e.1) : Vigente header disco (antes ++ [e]) s' := by
  obtain ⟨l, r⟩ := e
  cases l with
  | leerHeaderOsada f =>
    obtain ⟨p, hrun, rfl⟩ := Op.of_bind_pure he
    exact (h.leerHeaderOsada hrun hregla).sinEdicion rfl
  | obtenerBitmap fs =>
    obtain ⟨p, hrun, rfl⟩ := Op.of_bind_pure he
    exact (h.obtenerBitmap hrun).1.sinEdicion rfl
  | editarBloqueEnBitmap carga escritura basura nBloque ocupado =>
    obtain ⟨r, hrun, rfl⟩ := Op.of_bind_pure he
    obtain ⟨p, s₁, hbitmap, hno, hfin⟩ := editarBloqueEnBitmap_cases hrun
    obtain ⟨hvigente, hp⟩ := h.obtenerBitmap hbitmap
    rcases hfin with ⟨rfl, k, rfl, rfl⟩ | ⟨rfl, rfl⟩
    · rcases hp with ⟨hnulo, -⟩ | ⟨-, hlib⟩ | ⟨rfl, hcargado, -⟩
      · exact absurd hnulo hno
      · exact absurd hlib hregla
      · apply hvigente.escribirByte
        rw [bitmapCon_concat_some rfl]
        exact hcargado.escribirByte _ ocupado basura
    · exact hvigente.sinEdicion rfl

end Sequence

/-- The bytes of a disk with `headerChico` and no entries. -/
def bytesDeDiscoChico : List UInt8 :=
  [79, 83, 65, 68, 65, 70, 83, 1, 22, 4, 0, 0, 3, 0, 0, 0, 4, 4, 0, 0, 16, 0, 0, 0] ++
    List.replicate 40 0 ++ (List.range 192).map discoChico.bitmap ++ List.replicate (1042 * 64) 0

/-- A load that fails and a second call, which finds the file well. -/
def dosLecturasDelHeader : List (Llamada × Devuelto) :=
  [(.leerHeaderOsada ⟨0, true, 0⟩, .puntero .nulo),
    (.leerHeaderOsada ⟨0, true, 64⟩, .puntero (.a (List.replicate 64 none)))]

def dosLecturasDelBitmap : List (Llamada × Devuelto) :=
  [(.obtenerBitmap ⟨64, true, 0⟩, .puntero .nulo),
    (.obtenerBitmap ⟨64, true, 192⟩, .puntero .liberado)]

def Refleja (bitmap : List UInt8) (d : Disco) : Prop :=
  ∀ i < bitmap.length, bitmap[i]? = some (d.bitmap i)

section Refleja
variable {bitmap : List UInt8} {pokedex : Pokedex}

theorem length_conEdicion (e : ℕ × Bool) : (conEdicion bitmap e).length = bitmap.length :=
  List.length_set

theorem Refleja.conEdicion (h : Refleja bitmap pokedex.disco)
    (hlargo : bitmap.length = pokedex.disco.header.bitmapBlocks * 64) (e : ℕ × Bool) :
    Refleja (conEdicion bitmap e) (pokedex.marcarBit e.1 e.2).disco := by
  intro i hi
  rw [length_conEdicion] at hi
  have hhay := h i hi
  simp only [Cache.conEdicion, Pokedex.marcarBit, Pokedex.escribir_disco, Disco.aplicar]
  by_cases hbyte : e.1 / 8 = i
  · subst hbyte
    rw [if_pos (hlargo ▸ hi), Function.update_self, List.getElem?_set_self hi,
      List.getD_eq_getElem?_getD, hhay, Option.getD_some]
  · rw [List.getElem?_set_ne hbyte, hhay]
    split
    · rw [Function.update_of_ne (Ne.symm hbyte)]
    · rfl

theorem refleja_bitmapCon {header : OsadaHeader} {disco : List UInt8}
    (h : Refleja (bitmapDe header disco) pokedex.disco)
    (hlargo : (bitmapDe header disco).length = pokedex.disco.header.bitmapBlocks * 64)
    (antes : List (Llamada × Devuelto)) :
    Refleja (bitmapCon header disco antes)
      ((ediciones header antes).foldl (fun s e => s.marcarBit e.1 e.2) pokedex).disco := by
  unfold bitmapCon
  generalize bitmapDe header disco = bitmap at h hlargo ⊢
  induction ediciones header antes generalizing bitmap pokedex with
  | nil => exact h
  | cons e es ih => exact ih _ (h.conEdicion hlargo e) (by rw [length_conEdicion, hlargo]; rfl)

/-- After calls in order, the bitmap that a call is given is the one that their edits leave in the
server. -/
theorem obtenerBitmap_refleja {header : OsadaHeader} {disco : List UInt8}
    {es : List (Llamada × Devuelto)} {s s' : Estado} {fs : Fichero} {p : Puntero}
    (h : Refleja (bitmapDe header disco) pokedex.disco)
    (hlargo : (bitmapDe header disco).length = pokedex.disco.header.bitmapBlocks * 64)
    (hregla : Run.Each (Paso header) (fun _ s e _ => EnRegla s e.1) (inicio disco) es)
    (hrun : Run (Paso header) (inicio disco) es s)
    (hllamada : obtenerBitmap fs header s = (some p, s'))
    (hcarga : s.punteroBitmapSingleton ≠ .liberado) (hp : p ≠ .nulo) :
    ∃ bitmap, p = .a (bitmap.map some) ∧
      Refleja bitmap
        ((ediciones header es).foldl (fun s e => s.marcarBit e.1 e.2) pokedex).disco := by
  have hvigente : Vigente header disco es s :=
    hregla.invariant (I := fun antes s => Vigente header disco antes s)
      (fun _ _ _ _ h he hregla => h.paso he hregla) vigente_inicio es s (List.prefix_refl es) hrun
  have htiene := (hvigente.tiene_bitmap hllamada).mpr hcarga
  exact ⟨bitmapCon header disco es, htiene hp, refleja_bitmapCon h hlargo es⟩

end Refleja

end TpSo.Osada.Cache
