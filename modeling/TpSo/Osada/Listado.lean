import TpSo.Osada.Borrados
import TpSo.Osada.Consultas
import TpSo.Osada.Rutas

/-!
# The entries of a directory, and the paths below it

Every entry of a directory can be looked up by its path if it has a name that a path can have.
-/

namespace TpSo.Osada

/-- The live entries of a directory, in the order of the table. -/
def hijos (archivos : ℕ → OsadaFile) (p : ℕ) : List ℕ :=
  (List.range 2048).filter fun i => (archivos i).parentDirectory = p ∧ (archivos i).state ≠ .deleted

theorem mem_hijos {archivos : ℕ → OsadaFile} {p i : ℕ} :
    i ∈ hijos archivos p ↔ EsHijo archivos i p := by
  simp [hijos, EsHijo, OsadaFile.Vivo, and_comm (a := (archivos i).parentDirectory = p)]

theorem listarDirectorio_eq (d : Disco) (p : ℕ) :
    listarDirectorio d p = (hijos d.archivos p).map d.archivos := by
  rw [listarDirectorio, List.filter_map]
  rfl

/-- The path of what has that name in the directory. -/
def debajo (path nombre : List UInt8) : List UInt8 :=
  if path = [barra] then barra :: nombre else path ++ barra :: nombre

/-- `leerPath` finds a live entry of that name below the directory, which is at `p`. -/
def Resuelve (d : Disco) (basura : OsadaFile) (path : Cadena) (p : ℕ) (nombre : List UInt8) : Prop :=
  ∃ (ruta : Cadena) (l : Lectura), ruta.1 = debajo path.1 nombre ∧
    leerPath d basura ruta = some l ∧ l.resultado = .archivoExiste ∧ Coincide d p nombre l.posicion

theorem corte {token : List UInt8} (htoken : barra ∉ token) (resto : List UInt8) :
    (token ++ barra :: resto).takeWhile (· ≠ barra) = token ∧
      ((token ++ barra :: resto).dropWhile (· ≠ barra)).drop 1 = resto := by
  have htodos : ∀ b ∈ token, decide (b ≠ barra) = true := fun b hb =>
    decide_eq_true fun he => htoken (he ▸ hb)
  rw [List.takeWhile_append_of_pos htodos, List.dropWhile_append_of_pos htodos]
  simp

theorem token_sin_barra (texto : List UInt8) : barra ∉ texto.takeWhile (· ≠ barra) := by
  intro hmem
  have hne := List.all_eq_true.mp (List.all_takeWhile (p := (· ≠ barra)) (l := texto)) barra hmem
  simp at hne

/-- After one more component the first token ends where it did, or where the separator was put. -/
theorem token_debajo (str c : List UInt8) :
    ∃ x, str ++ barra :: c = str.takeWhile (· ≠ barra) ++ barra :: x ∧
      (str.dropWhile (· ≠ barra) = [] ∧ x = c ∨ ∃ resto,
        str.dropWhile (· ≠ barra) = barra :: resto ∧ resto.length < str.length ∧
          x = resto ++ barra :: c) := by
  have hparte := List.takeWhile_append_dropWhile (p := (· ≠ barra)) (l := str)
  rcases hresto : str.dropWhile (· ≠ barra) with _ | ⟨b, resto⟩
  · rw [hresto, List.append_nil] at hparte
    exact ⟨c, by rw [hparte], .inl ⟨rfl, rfl⟩⟩
  · obtain rfl : b = barra := by
      have hb := List.head?_dropWhile_not (· ≠ barra) str
      rw [hresto] at hb
      simpa using hb
    rw [hresto] at hparte
    have hlen := congrArg List.length hparte
    rw [List.length_append, List.length_cons] at hlen
    refine ⟨resto ++ barra :: c, ?_, .inr ⟨resto, rfl, by omega, rfl⟩⟩
    rw [← List.cons_append, ← List.append_assoc, hparte]

theorem partirTexto_sin_barra {n : ℕ} {texto : List UInt8} {partes : List (List UInt8)}
    (h : partirTexto n texto = some partes) : ∀ parte ∈ partes, barra ∉ parte := by
  induction n generalizing texto partes with
  | zero =>
    obtain rfl := Option.some.inj h
    simp
  | succ n ih =>
    rw [partirTexto] at h
    split at h
    · obtain rfl := Option.some.inj h
      simp
    · simp only at h
      split at h
      · cases h
      · obtain ⟨ps, hps, rfl⟩ := Option.map_eq_some_iff.mp h
        exact List.forall_mem_cons.mpr ⟨token_sin_barra _, ih hps⟩

section Partes
variable {c : List UInt8} (hne : c ≠ []) (hbarra : barra ∉ c)
include hne hbarra

theorem partirTexto_una {n : ℕ} (hn : c.length ≤ n) : partirTexto n c = some [c] :=
  partirTexto_eq (List.forall_mem_singleton.mpr ⟨hne, hbarra⟩) hn (.inr (by simp))

theorem partirTexto_barra_una {n : ℕ} (hn : (barra :: c).length ≤ n) :
    partirTexto n (barra :: c) = some [c] :=
  partirTexto_eq (List.forall_mem_singleton.mpr ⟨hne, hbarra⟩) hn (.inl (by simp))

/-- One more component. The induction is on the rounds of `string_split`. -/
theorem partirTexto_debajo {n n' : ℕ} {texto : List UInt8} {partes : List (List UInt8)}
    (hn : texto.length ≤ n) (h : partirTexto n texto = some partes)
    (hn' : (texto ++ barra :: c).length ≤ n') :
    partirTexto n' (texto ++ barra :: c) = some (partes ++ [c]) := by
  induction n generalizing n' texto partes with
  | zero =>
    obtain rfl := List.eq_nil_of_length_eq_zero (Nat.le_zero.mp hn)
    obtain rfl := Option.some.inj h
    exact partirTexto_barra_una hne hbarra hn'
  | succ n ih =>
    rw [partirTexto] at h
    split at h
    · next hnil =>
      subst hnil
      obtain rfl := Option.some.inj h
      exact partirTexto_barra_una hne hbarra hn'
    · next hnil =>
      simp only at h
      split at h
      · cases h
      · next hstr =>
        obtain ⟨ps, hps, rfl⟩ := Option.map_eq_some_iff.mp h
        have hsin : (texto ++ barra :: c).dropWhile (· = barra) =
            texto.dropWhile (· = barra) ++ barra :: c := by
          rw [List.dropWhile_append, if_neg (by rwa [List.isEmpty_iff])]
        have hlargo := (List.dropWhile_sublist (· = barra) (l := texto)).length_le
        generalize texto.dropWhile (· = barra) = str at hstr hps hsin hlargo
        -- what comes after the token in the longer text
        obtain ⟨x, hx, hsigue⟩ : ∃ x, str ++ barra :: c = str.takeWhile (· ≠ barra) ++ barra :: x ∧
            ∀ m, x.length ≤ m → partirTexto m x = some (ps ++ [c]) := by
          obtain ⟨x, hx, ⟨hresto, rfl⟩ | ⟨resto, hresto, hlen, rfl⟩⟩ := token_debajo str c
          · rw [hresto, List.drop_nil, partirTexto_nil] at hps
            obtain rfl := Option.some.inj hps
            exact ⟨x, hx, fun m hm => partirTexto_una hne hbarra hm⟩
          · rw [hresto] at hps
            exact ⟨_, hx, fun m hm => ih (by omega) hps hm⟩
        have hlen := congrArg List.length hx
        simp only [List.length_append, List.length_cons] at hlen hn'
        obtain ⟨m, rfl⟩ : ∃ m, n' = m + 1 := ⟨n' - 1, by omega⟩
        obtain ⟨htoken, hfin⟩ := corte (token_sin_barra str) x
        rw [partirTexto, if_neg (List.append_ne_nil_of_left_ne_nil hnil _)]
        simp only
        rw [hsin, if_neg (List.append_ne_nil_of_left_ne_nil hstr _), hx, htoken, hfin,
          hsigue m (by omega)]
        rfl

theorem stringSplit_debajo {path ruta : Cadena} {partes : List (List UInt8)}
    (h : stringSplit path = some partes) (hruta : ruta.1 = path.1 ++ barra :: c) :
    stringSplit ruta = some (partes ++ [c]) := by
  unfold stringSplit
  rw [hruta]
  exact partirTexto_debajo hne hbarra (le_refl _) h (le_refl _)

end Partes

section Resuelve
variable {d : Disco} {basura : OsadaFile} {path ruta : Cadena} {l : Lectura} {c : List UInt8}

/-- The components of the longer path lead to the entry of that name. -/
theorem lleva_debajo (hl : leerPath d basura path = some l) (hr : l.resultado = .archivoExiste)
    (hne : c ≠ []) (hbarra : barra ∉ c) (hruta : ruta.1 = debajo path.1 c) {i : ℕ}
    (hb : Baja d l.posicion c i) :
    ∃ partes, stringSplit ruta = some (partes ++ [c]) ∧ Lleva d (partes ++ [c]) i := by
  by_cases hraiz : EsRaiz path
  · rw [leerPath_raiz hraiz, Option.some.injEq] at hl
    subst hl
    refine ⟨[], ?_, .cons hb (.nil i)⟩
    have hbytes : ruta.1 = barra :: c := by
      rw [hruta, debajo]
      rcases hraiz with h | h <;> simp [h]
    unfold stringSplit
    rw [hbytes]
    exact partirTexto_barra_una hne hbarra (le_refl _)
  · have hno : path.1 ≠ [barra] := fun h => hraiz (.inl h)
    obtain ⟨partes, hpartes⟩ := partes_of_leerPath hno hl
    rw [debajo, if_neg hno] at hruta
    exact ⟨partes, stringSplit_debajo hne hbarra hpartes hruta,
      (lleva_of_leerPath hraiz hpartes hl hr).2.concat hb⟩

/-- The name of an entry can be looked up just if it is one that a path can have. -/
theorem resuelve_iff (hl : leerPath d basura path = some l) (hr : l.resultado = .archivoExiste)
    (hdir : HayDirectorio d l.posicion) (hcero : (0 : UInt8) ∉ c)
    (hc : ∃ i, Coincide d l.posicion c i) :
    Resuelve d basura path l.posicion c ↔ c ≠ [] ∧ barra ∉ c := by
  constructor
  · rintro ⟨ruta, l', _, hl', hr', hc'⟩
    have hraiz : ¬ EsRaiz ruta := by
      intro h
      obtain ⟨_, _, _, hiff⟩ := leerPath_existe hl' hr'
      exact absurd (hiff.mp h ▸ hc'.enTabla) (by decide)
    have hno : ruta.1 ≠ [barra] := fun h => hraiz (.inl h)
    obtain ⟨partes, hpartes⟩ := partes_of_leerPath hno hl'
    obtain ⟨hpartesne, hw⟩ := lleva_of_leerPath hraiz hpartes hl' hr'
    obtain ⟨previas, u, rfl⟩ := (List.eq_nil_or_concat' partes).resolve_left hpartesne
    obtain ⟨q, _, hb⟩ := hw.of_concat
    obtain rfl : u = c := hb.2.1.nombre.symm.trans hc'.nombre
    have hmem : u ∈ previas ++ [u] := List.mem_append_right _ (List.mem_singleton.mpr rfl)
    exact ⟨(partirTexto_mem hpartes hmem).1, partirTexto_sin_barra hpartes u hmem⟩
  · rintro ⟨hne, hbarra⟩
    obtain ⟨i, hi⟩ : ∃ i, obtenerEstructuraDeArchivo d l.posicion c = some i := by
      rcases h : obtenerEstructuraDeArchivo d l.posicion c with _ | i
      · obtain ⟨i, hi⟩ := hc
        exact absurd hi (obtenerEstructuraDeArchivo_eq_none.mp h i)
      · exact ⟨i, rfl⟩
    have hb : Baja d l.posicion c i := ⟨hdir, obtenerEstructuraDeArchivo_iff.mp hi⟩
    have hsin : (0 : UInt8) ∉ debajo path.1 c := by
      have hp := path.2
      unfold debajo
      split <;> simp [hcero, hp, barra]
    have hruta : (⟨_, hsin⟩ : Cadena).1 = debajo path.1 c := rfl
    obtain ⟨partes, hpartes, hw⟩ := lleva_debajo hl hr hne hbarra hruta hb
    have hno : debajo path.1 c ≠ [barra] := by
      intro h
      have hpos := List.length_pos_iff.mpr hne
      have hlen := congrArg List.length h
      unfold debajo at hlen
      split at hlen
      · rw [List.length_cons, List.length_singleton] at hlen
        omega
      · rw [List.length_append, List.length_cons, List.length_singleton] at hlen
        omega
    exact ⟨⟨_, hsin⟩, _, rfl, leerPath_of_lleva hno hpartes (by simp) hw, rfl, hb.2.1⟩

end Resuelve

end TpSo.Osada
