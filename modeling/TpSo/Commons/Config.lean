import Mathlib.Data.List.Nodup
import TpSo.Commons.Diccionario
import TpSo.Commons.Texto

/-!
# The configuration files

A line is a comment or `key=value`, and is put in a dictionary. There a key stands for its hash, and
the first line with it counts. `none` is the end of the process; a file that cannot be opened gives
a `NULL`.
-/

namespace TpSo.Commons

/-- `t_config`. -/
structure Config where
  path : List UInt8
  properties : Diccionario (List UInt8)

def saltoDeLinea : UInt8 := 10

def igual : UInt8 := 61

def numeral : UInt8 := 35

def addCofiguracion (properties : Diccionario (List UInt8)) (line : List UInt8) :
    Option (Diccionario (List UInt8)) :=
  if stringStartsWith line [numeral] then some properties
  else (stringNSplit line 2 igual).bind fun keyAndValue =>
    keyAndValue.head?.map fun key => properties.dictionaryPut key keyAndValue[1]?

/-- The file is `none` where it cannot be opened. -/
def configCreate (path : List UInt8) (file : Option (List UInt8)) : Option (Option Config) :=
  match file with
  | none => some none
  | some content =>
    let buffer := content.takeWhile (· ≠ 0)
    (stringSplit buffer saltoDeLinea).bind fun lines =>
      (lines.foldlM addCofiguracion dictionaryCreate).map fun properties =>
        some { path, properties }

namespace Config

def configHasProperty (self : Config) (key : List UInt8) : Bool :=
  self.properties.dictionaryHasKey key

def configGetStringValue (self : Config) (key : List UInt8) : Option (List UInt8) :=
  self.properties.dictionaryGet key

/-- `atoi` of a `NULL` is the end of the process. -/
def configGetIntValue (self : Config) (key : List UInt8) : Option ℤ :=
  (self.configGetStringValue key).map atoi

def configGetArrayValue (self : Config) (key : List UInt8) : Option (List (List UInt8)) :=
  (self.configGetStringValue key).bind stringGetStringAsArray

def configKeysAmount (self : Config) : ℤ := self.properties.dictionarySize

end Config

/-! ## What a file says -/

def EsComentario (line : List UInt8) : Prop := line.head? = some numeral

instance : DecidablePred EsComentario := fun _ => inferInstanceAs (Decidable (_ = _))

/-- What is left of a line from the first character of the key on. -/
def sinIguales (line : List UInt8) : List UInt8 := line.dropWhile (· = igual)

def clave (line : List UInt8) : List UInt8 := (sinIguales line).takeWhile (· ≠ igual)

/-- What is after the key and one `=`. -/
def resto (line : List UInt8) : List UInt8 := ((sinIguales line).dropWhile (· ≠ igual)).drop 1

def asignacion (line : List UInt8) : List UInt8 × Option (List UInt8) :=
  (clave line, if resto line = [] then none else some (resto line))

/-- The text up to the first `'\x00'`. -/
def texto (content : List UInt8) : List UInt8 := content.takeWhile (· ≠ 0)

/-- The lines that count. -/
def lineas (content : List UInt8) : List (List UInt8) :=
  (words saltoDeLinea (texto content)).filter (¬ EsComentario ·)

/-- The first value that the file gives to a key, or to another one with its hash. -/
def valor (content key : List UInt8) : Option (List UInt8) :=
  (((lineas content).map asignacion).find? fun a => dictionaryHash a.1 = dictionaryHash key).bind
    Prod.snd

/-- The file cannot be read: there is an empty line at its end, or one with nothing before or after
its `=`. -/
def Ilegible (content : List UInt8) : Prop :=
  Stuck saltoDeLinea (texto content) ∨ ∃ line ∈ lineas content, sinIguales line = []

instance (content : List UInt8) : Decidable (Ilegible content) :=
  inferInstanceAs (Decidable (_ ∨ ∃ line ∈ lineas content, sinIguales line = []))

section Lineas
variable {line : List UInt8} {properties : Diccionario (List UInt8)} {content : List UInt8}

theorem stringStartsWith_numeral :
    stringStartsWith line [numeral] = true ↔ EsComentario line := by
  unfold stringStartsWith EsComentario
  cases line with
  | nil => decide
  | cons c line =>
    simp only [List.isPrefixOf, Bool.and_true, beq_iff_eq, List.head?_cons, Option.some.injEq]
    exact eq_comm

theorem stringNSplit_igual (hne : line ≠ []) :
    stringNSplit line 2 igual = if sinIguales line = [] then none
      else some (clave line :: (asignacion line).2.toList) := by
  have hone : splitTokens igual 1 line =
      if sinIguales line = [] then none else some ([clave line], resto line) := by
    rw [splitTokens, if_neg hne]
    rfl
  rw [stringNSplit, stringSplitHasta, hone]
  unfold asignacion
  split
  · rfl
  · rw [Option.map_some]
    split <;> rfl

theorem addCofiguracion_eq (hne : line ≠ []) : addCofiguracion properties line =
    if EsComentario line then some properties
    else if sinIguales line = [] then none
    else some (properties.dictionaryPut (asignacion line).1 (asignacion line).2) := by
  unfold addCofiguracion
  by_cases hc : EsComentario line
  · rw [if_pos (stringStartsWith_numeral.mpr hc), if_pos hc]
  · rw [if_neg fun h => hc (stringStartsWith_numeral.mp h), if_neg hc, stringNSplit_igual hne]
    by_cases hs : sinIguales line = []
    · rw [if_pos hs, if_pos hs, Option.bind_none]
    · rw [if_neg hs, if_neg hs, Option.bind_some, List.head?_cons, Option.map_some]
      cases h : (asignacion line).2 <;> rfl

/-- The lines of the file are put in the dictionary one after another. -/
theorem foldlM_addCofiguracion {lines : List (List UInt8)} (hne : ∀ l ∈ lines, l ≠ []) :
    lines.foldlM addCofiguracion properties =
      if ∃ l ∈ lines.filter (¬ EsComentario ·), sinIguales l = [] then none
      else some (((lines.filter (¬ EsComentario ·)).map asignacion).foldl
        (fun d a => d.dictionaryPut a.1 a.2) properties) := by
  induction lines generalizing properties with
  | nil => simp
  | cons l lines ih =>
    have hrest := fun p => @ih p fun l' hl' => hne l' (List.mem_cons_of_mem _ hl')
    rw [List.foldlM_cons, addCofiguracion_eq (hne l List.mem_cons_self)]
    by_cases hc : EsComentario l
    · rw [if_pos hc, Option.bind_eq_bind, Option.bind_some, hrest,
        List.filter_cons_of_neg (by simpa using hc)]
    · rw [if_neg hc, List.filter_cons_of_pos (by simpa using hc)]
      by_cases hs : sinIguales l = []
      · rw [if_pos hs, if_pos ⟨l, List.mem_cons_self, hs⟩]
        rfl
      · rw [if_neg hs, Option.bind_eq_bind, Option.bind_some, hrest]
        simp only [List.mem_cons, exists_eq_or_imp, hs, false_or]
        rfl

end Lineas

/-! ## What is read of it -/

theorem foldl_poner (as : List (List UInt8 × Option (List UInt8))) (q : Colas (List UInt8)) :
    (as.foldl (fun q a => q.poner a.1 a.2) q).nulos = q.nulos ∧
      ∀ h, (as.foldl (fun q a => q.poner a.1 a.2) q).cola h =
        q.cola h ++ as.filter (dictionaryHash ·.1 = h) := by
  induction as generalizing q with
  | nil => exact ⟨rfl, fun h => (List.append_nil _).symm⟩
  | cons a as ih =>
    obtain ⟨hnulos, hcola⟩ := ih (q.poner a.1 a.2)
    refine ⟨hnulos, fun h => ?_⟩
    rw [List.foldl_cons, hcola h]
    by_cases hh : dictionaryHash a.1 = h
    · subst hh
      simp [Colas.poner]
    · simp [Colas.poner, hh, Ne.symm hh]

theorem Representa.elementsAmount_put {d : Diccionario (List UInt8)} {q : Colas (List UInt8)}
    (h : Representa d q) (key : List UInt8) (data : Option (List UInt8)) :
    (d.dictionaryPut key data).elementsAmount = d.elementsAmount + 1 := by
  rcases dictionaryPut_cases h.armado key data with he | he <;> rw [he]

theorem representa_foldl (as : List (List UInt8 × Option (List UInt8)))
    {d : Diccionario (List UInt8)} {q : Colas (List UInt8)} (h : Representa d q) :
    Representa (as.foldl (fun d a => d.dictionaryPut a.1 a.2) d)
        (as.foldl (fun q a => q.poner a.1 a.2) q) ∧
      (as.foldl (fun d a => d.dictionaryPut a.1 a.2) d).elementsAmount =
        d.elementsAmount + as.length := by
  induction as generalizing d q with
  | nil => exact ⟨h, by simp⟩
  | cons a as ih =>
    obtain ⟨hrest, hamount⟩ := ih (h.put a.1 a.2)
    refine ⟨hrest, ?_⟩
    rw [List.foldl_cons, hamount, h.elementsAmount_put, List.length_cons]
    omega

/-- The dictionary of what a file says. -/
def propiedades (content : List UInt8) : Diccionario (List UInt8) :=
  ((lineas content).map asignacion).foldl (fun d a => d.dictionaryPut a.1 a.2) dictionaryCreate

theorem configCreate_eq (path content : List UInt8) : configCreate path (some content) =
    if Ilegible content then none else some (some ⟨path, propiedades content⟩) := by
  have hne : ∀ l ∈ words saltoDeLinea (texto content), l ≠ [] := by
    intro l hl
    simpa using (List.mem_filter.mp hl).2
  unfold configCreate
  dsimp only
  rw [← texto, stringSplit_eq]
  by_cases hs : Stuck saltoDeLinea (texto content)
  · rw [if_pos hs, if_pos (.inl hs), Option.bind_none]
  · rw [if_neg hs, Option.bind_some, foldlM_addCofiguracion hne, ← lineas]
    by_cases hl : ∃ line ∈ lineas content, sinIguales line = []
    · rw [if_pos hl, if_pos (.inr hl), Option.map_none]
    · rw [if_neg hl, if_neg fun h => h.elim hs hl, Option.map_some]
      rfl

theorem propiedades_colas (content : List UInt8) :
    (∃ q, Representa (propiedades content) q ∧
      ∀ h, q.cola h = ((lineas content).map asignacion).filter (dictionaryHash ·.1 = h)) ∧
    (propiedades content).elementsAmount = (lineas content).length := by
  obtain ⟨hq, hamount⟩ := representa_foldl ((lineas content).map asignacion) representa_create
  refine ⟨⟨_, hq, (foldl_poner _ Colas.vacias).2⟩, ?_⟩
  rw [propiedades, hamount, List.length_map]
  exact Int.zero_add _

theorem valor_eq (path content key : List UInt8) :
    (⟨path, propiedades content⟩ : Config).configGetStringValue key = valor content key := by
  obtain ⟨⟨q, hq, hcola⟩, -⟩ := propiedades_colas content
  rw [Config.configGetStringValue, hq.get, Colas.primero, hcola, List.head?_filter, valor]

/-- A file comes back as a configuration if, and only if, it ends in no empty line and every line
that is no comment has something that is not an `=`. The value of a key is then what the first line
with its hash says, whatever the file is like otherwise, and each of the lines is counted. -/
theorem config_create (path content : List UInt8) :
    (Ilegible content ∧ configCreate path (some content) = none) ∨
      ¬ Ilegible content ∧ ∃ c, configCreate path (some content) = some (some c) ∧
        (∀ key, c.configGetStringValue key = valor content key) ∧
        (∀ key, c.configHasProperty key = true ↔
          ∃ line ∈ lineas content, dictionaryHash (clave line) = dictionaryHash key) ∧
        c.configKeysAmount = (lineas content).length := by
  rw [configCreate_eq]
  by_cases h : Ilegible content
  · exact .inl ⟨h, if_pos h⟩
  · obtain ⟨⟨q, hq, hcola⟩, hamount⟩ := propiedades_colas content
    refine .inr ⟨h, _, if_neg h, valor_eq path content, fun key => ?_, hamount⟩
    rw [Config.configHasProperty, hq.hasKey, hcola, Bool.not_eq_true', List.isEmpty_eq_false_iff]
    constructor
    · intro hne
      obtain ⟨a, ha⟩ := List.exists_mem_of_ne_nil _ hne
      obtain ⟨hmem, hhash⟩ := List.mem_filter.mp ha
      obtain ⟨line, hline, rfl⟩ := List.mem_map.mp hmem
      exact ⟨line, hline, of_decide_eq_true hhash⟩
    · rintro ⟨line, hline, hhash⟩
      exact List.ne_nil_of_mem (List.mem_filter.mpr
        ⟨List.mem_map.mpr ⟨line, hline, rfl⟩, decide_eq_true hhash⟩)

/-! ## Files that are written -/

/-- A line of a file, from a key and its value. -/
def linea (par : List UInt8 × List UInt8) : List UInt8 := par.1 ++ igual :: par.2

/-- The file can be read, and the lines of the pairs are the ones that count with their keys: no
other line has a key with the hash of one of them. -/
structure Escribe (content : List UInt8) (pares : List (List UInt8 × List UInt8)) : Prop where
  legible : ¬ Ilegible content
  esta : ∀ p ∈ pares, linea p ∈ lineas content
  unica : ∀ p ∈ pares, ∀ line ∈ lineas content,
    dictionaryHash (clave line) = dictionaryHash p.1 → line = linea p

/-- Each pair can be written in a line. -/
structure Escribible (pares : List (List UInt8 × List UInt8)) : Prop where
  key : ∀ p ∈ pares, p.1 ≠ [] ∧ igual ∉ p.1
  value : ∀ p ∈ pares, p.2 ≠ []

section Escritura
variable {content key value : List UInt8} {pares : List (List UInt8 × List UInt8)}

theorem find?_unico {α κ : Type} [DecidableEq κ] {f : α → κ} {xs : List α} {x : α} (hx : x ∈ xs)
    (h : ∀ y ∈ xs, f y = f x → y = x) : xs.find? (f · = f x) = some x := by
  cases hfind : xs.find? (f · = f x) with
  | none => exact absurd (decide_eq_true rfl) (List.find?_eq_none.mp hfind x hx)
  | some y =>
    rw [h y (List.mem_of_find?_eq_some hfind) (of_decide_eq_true (List.find?_some hfind :))]

theorem sinIguales_linea (value : List UInt8) (hne : key ≠ []) (h : igual ∉ key) :
    sinIguales (linea (key, value)) = key ++ igual :: value := by
  obtain ⟨c, key, rfl⟩ := List.exists_cons_of_ne_nil hne
  have hc : c ≠ igual := fun he => h (he ▸ List.mem_cons_self)
  exact List.dropWhile_cons_of_neg (by simpa using hc)

theorem asignacion_linea (hne : key ≠ []) (h : igual ∉ key) (hvalue : value ≠ []) :
    asignacion (linea (key, value)) = (key, some value) := by
  have hrest : (igual :: value).head? = some igual ∨ igual :: value = [] := .inl rfl
  obtain ⟨htake, hdrop⟩ := takeWhile_token h hrest
  have hclave : clave (linea (key, value)) = key := by rw [clave, sinIguales_linea value hne h, htake]
  have hresto : resto (linea (key, value)) = value := by
    rw [resto, sinIguales_linea value hne h, hdrop]
    rfl
  rw [asignacion, hclave, hresto, if_neg hvalue]

/-- What is written is read back, whatever else the file says. -/
theorem Escribe.configCreate (h : Escribe content pares) (hp : Escribible pares)
    (path : List UInt8) : ∃ c, configCreate path (some content) = some (some c) ∧
      ∀ p ∈ pares, c.configGetStringValue p.1 = some p.2 := by
  refine ⟨⟨path, propiedades content⟩, by rw [configCreate_eq, if_neg h.legible], fun p hmem => ?_⟩
  have hasignacion : asignacion (linea p) = (p.1, some p.2) :=
    asignacion_linea (hp.key p hmem).1 (hp.key p hmem).2 (hp.value p hmem)
  have hfind : ((lineas content).map asignacion).find?
      (fun a => dictionaryHash a.1 = dictionaryHash p.1) = some (p.1, some p.2) := by
    refine find?_unico (f := fun a : List UInt8 × Option (List UInt8) => dictionaryHash a.1)
      (x := (p.1, some p.2)) (List.mem_map.mpr ⟨_, h.esta p hmem, hasignacion⟩) fun a ha hhash => ?_
    obtain ⟨line, hline, rfl⟩ := List.mem_map.mp ha
    rw [h.unica p hmem line hline hhash, hasignacion]
  rw [valor_eq, valor, hfind]
  rfl

end Escritura

end TpSo.Commons
