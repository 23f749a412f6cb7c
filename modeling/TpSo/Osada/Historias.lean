import TpSo.Osada.Lecturas

/-!
# What whole runs leave

A path that no call of a run names reads as it did. Calls that are undone, the last one first, leave
the file system as it was. No block is lost.
-/

namespace TpSo.Osada

/-! ## What is left alone -/

def Operacion.Toca (cs : List (List UInt8)) : Operacion → Prop
  | .crearArchivo _ _ path | .crearDirectorio _ _ path | .editar _ path _ _ _ | .truncar _ path _
  | .eliminar _ path _ => componentes path = cs
  | .renombrar _ viejoNombre nuevoNombre =>
    componentes viejoNombre <+: cs ∨ componentes nuevoNombre <+: cs
  | .utimens _ _ _ => False

namespace Sistema

variable {a a' : Sistema} {cs : List (List UInt8)} {op : Operacion}

theorem crear_ajeno {hasta : List (List UInt8)} {nodo : Node (List UInt8)} (h : cs ≠ hasta) :
    (a.crear hasta nodo).2.arbol.node cs = a.arbol.node cs := by
  unfold crear
  split
  · rfl
  · split
    · next hv => exact FileTree.insert_node_of_ne hv.1 h
    · rfl

theorem reescribir_ajeno {path : List (List UInt8)} {hasta : ℕ}
    {nuevos : List UInt8 → List UInt8} {r : ℤ} (h : cs ≠ path) :
    (a.reescribir path hasta nuevos r).2.arbol.node cs = a.arbol.node cs := by
  unfold reescribir
  split
  · split
    · exact FileTree.write_node_of_ne h
    · rfl
  · rfl

theorem hacer_ajeno (h : ¬ op.Toca cs) : (a.hacer op).2.arbol.node cs = a.arbol.node cs := by
  cases op with
  | crearArchivo hora basura path => exact crear_ajeno (Ne.symm h)
  | crearDirectorio hora basura path => exact crear_ajeno (Ne.symm h)
  | editar basura path inicioBytes bytesAEscribir archivo => exact reescribir_ajeno (Ne.symm h)
  | truncar basura path bytesATruncar => exact reescribir_ajeno (Ne.symm h)
  | renombrar basura viejoNombre nuevoNombre =>
    obtain ⟨hviejo, hnuevo⟩ := not_or.mp h
    rw [hacer, renombrar]
    split
    · exact FileTree.movedNode_other hnuevo hviejo
    · rfl
  | eliminar basura path hard =>
    rw [hacer, eliminar]
    split
    · next hay =>
      split
      · next hc => exact FileTree.remove_node_of_ne hay.1 hc (Ne.symm h)
      · rfl
    · rfl
  | utimens basura path segundos =>
    rw [hacer, fechar]
    split <;> rfl

theorem corre_ajeno {es : List (Operacion × ℤ)} (h : Run PasoDelSistema a es a')
    (hno : ∀ e ∈ es, ¬ e.1.Toca cs) : a'.arbol.node cs = a.arbol.node cs := by
  induction h with
  | nil a => rfl
  | cons hpaso _ ih =>
    rw [ih fun e he => hno e (List.mem_cons_of_mem _ he), hpaso.2]
    exact hacer_ajeno (hno _ List.mem_cons_self)

end Sistema

/-- A read finds at a path that no call of the run names what it found before: it comes back or
not as it did, with the same bytes. -/
theorem lectura_ajena {s s' : Pokedex} {es : List (Operacion × ℤ)} {path : Cadena} (hs : Fiel s)
    (h : Run PasoEnRegla s es s') (hleg : path.Legible)
    (hno : ∀ e ∈ es, ¬ e.1.Toca (componentes path)) (basura : OsadaFile) (memoria : ℕ → UInt8)
    {n posicion : ℕ} (hn : n < 2147483648) (hpos : posicion < 2147483648) :
    (osadaExisteArchivo basura path s').1 = (osadaExisteArchivo basura path s).1 ∧
      (osadaLeerArchivo basura memoria path n posicion s').1 =
        (osadaLeerArchivo basura memoria path n posicion s).1 := by
  obtain ⟨hrun, hs'⟩ := corre h hs
  have hnodo := Sistema.corre_ajeno hrun hno
  rw [existe_como basura hleg, existe_como basura hleg, hs'.lee_como basura memoria hleg hn hpos,
    hs.lee_como basura memoria hleg hn hpos, hnodo]
  exact ⟨rfl, rfl⟩

/-- `/a/b` reads as it did once `/b` is made. -/
theorem lectura_ajena_chica : ∃ r s s', (sistema s).arbol.node [[97], [98]] = some (.file bytesAB) ∧
    PasoEnRegla s (.crearDirectorio 7 .borrado rutaB, r) s' ∧
      (osadaLeerArchivo .borrado (fun _ => 0) rutaAB (3 : ℕ) (0 : ℕ) s').1 = some (some [1, 2, 3]) := by
  obtain ⟨_, s, _, hrun, _, _, _, hnodo, _⟩ := corrida_creaAB
  have hs := (corre hrun fiel_discoChico).2
  have hop : (Operacion.crearDirectorio 7 .borrado rutaB).EnRegla (sistema s) := by
    rw [Operacion.EnRegla, show componentes rutaB = [[98]] by decide]
    simp [Nombrable]
  obtain ⟨r, s', h⟩ := hs.vuelve hop ⟨.inr (by decide), by decide⟩
  have hno : ∀ e ∈ [(Operacion.crearDirectorio 7 .borrado rutaB, r)],
      ¬ e.1.Toca (componentes rutaAB) := by
    rw [List.forall_mem_singleton]
    exact show componentes rutaB ≠ componentes rutaAB by decide
  have hlee := (@lectura_ajena _ _ _ rutaAB hs (.cons h (.nil s')) (.inr (by decide)) hno .borrado
    (fun _ => 0) 3 0 (by decide) (by decide)).2
  exact ⟨r, s, s', hnodo, h, hlee.trans (lee_creaAB hs hnodo)⟩

/-! ## What is undone -/

/-- What was made is deleted, and what was renamed gets its name back, if a renaming can write it. -/
inductive Deshace : Operacion → Operacion → Prop where
  | archivo (hora : ℕ) (basura basura' : OsadaFile) (path : Cadena) :
    Deshace (.crearArchivo hora basura path) (.eliminar basura' path 0)
  | directorio (hora : ℕ) (basura basura' : OsadaFile) (path : Cadena) :
    Deshace (.crearDirectorio hora basura path) (.eliminar basura' path 0)
  | nombre (basura basura' : OsadaFile) (viejoNombre nuevoNombre : Cadena)
    (h : Nombrable 16 (componentes viejoNombre)) :
    Deshace (.renombrar basura viejoNombre nuevoNombre) (.renombrar basura' nuevoNombre viejoNombre)

namespace Sistema

variable {a a' a'' : Sistema} {cs hasta : List (List UInt8)}

/-- The system does what is asked for. -/
def Logra (a : Sistema) (op : Operacion) : Prop :=
  (a.hacer op).1 = .posicion ∨ (a.hacer op).1 = .numero 1

theorem legible_of_componentes {path : Cadena} (h : componentes path ≠ []) : path.Legible := by
  by_contra hno
  obtain ⟨hbarra, hpartes⟩ := not_or.mp hno
  rw [Option.not_isSome_iff_eq_none] at hpartes
  rw [componentes, if_neg hbarra, hpartes] at h
  exact h rfl

theorem ne_nil_of_componentes {path : Cadena} (h : componentes path ≠ []) : path.1 ≠ [] :=
  fun hnil => h (componentes_raiz (.inr hnil))

theorem eliminar_crear {nodo : Node (List UInt8)} (h : (a.crear cs nodo).1 = .posicion)
    (hnodo : bloquesDeNodo (some nodo) = 0) :
    (a.crear cs nodo).2.eliminar cs = (.numero 1, a) := by
  unfold crear at h ⊢
  split at h
  · cases h
  · next hlugar =>
    split at h
    · next hv =>
      rw [if_neg hlugar, dif_pos hv]
      dsimp only
      have hay : Hay { a with
          arbol := a.arbol.insert cs nodo hv.1
          entradas := a.entradas - 1 } cs :=
        ⟨hv.1.ne_nil, by rw [FileTree.insert_node_self]; rfl⟩
      rw [eliminar_si hay (FileTree.childless_insert hv.1)]
      simp only [FileTree.remove_insert, FileTree.insert_node_self, hnodo]
      congr 2
      omega
    · cases h

theorem renombrar_renombrar (h : (a.renombrar cs hasta).1 = .numero 1) :
    (a.renombrar cs hasta).2.renombrar hasta cs = (.numero 1, a) := by
  unfold renombrar at h ⊢
  split at h
  · next hm =>
    rw [dif_pos hm]
    dsimp only
    have hback := FileTree.movable_back hm hm.not_above
    rw [dif_pos hback, FileTree.move_move]
  · exact absurd h (show Respuesta.numero archivoInexistente ≠ .numero 1 by decide)

theorem vacant_of_crear {nodo : Node (List UInt8)} (h : (a.crear cs nodo).1 = .posicion) :
    a.arbol.Vacant cs := by
  by_contra hno
  rcases eq_or_ne a.entradas 0 with h0 | h0
  · rw [crear_lleno h0] at h
    cases h
  · rw [crear_no h0 fun hv => hno hv.1] at h
    cases h

theorem movable_of_renombrar (h : (a.renombrar cs hasta).1 = .numero 1) :
    a.arbol.Movable cs hasta := by
  unfold renombrar at h
  split at h
  · assumption
  · exact absurd h (show Respuesta.numero archivoInexistente ≠ .numero 1 by decide)

theorem renombrar_ne_posicion : (a.renombrar cs hasta).1 ≠ .posicion := by
  unfold renombrar
  split <;> exact fun h => by cases h

theorem crear_ne_uno {nodo : Node (List UInt8)} : (a.crear cs nodo).1 ≠ .numero 1 := by
  unfold crear
  split
  · exact show Respuesta.numero noHayDescriptores ≠ .numero 1 by decide
  · split
    · exact show Respuesta.posicion ≠ .numero 1 by decide
    · exact show Respuesta.numero Resultado.pathInvalido.toInt ≠ .numero 1 by decide

theorem hacer_deshace {op op' : Operacion} (h : Deshace op op') (hlogra : a.Logra op) :
    (a.hacer op).2.hacer op' = (.numero 1, a) := by
  cases h with
  | archivo hora basura basura' path => exact eliminar_crear (hlogra.resolve_right crear_ne_uno) rfl
  | directorio hora basura basura' path => exact eliminar_crear (hlogra.resolve_right crear_ne_uno) rfl
  | nombre basura basura' viejoNombre nuevoNombre hnombre =>
    exact renombrar_renombrar (hlogra.resolve_left renombrar_ne_posicion)

/-- What was done leaves a system in which it can be undone. -/
theorem enRegla_deshace {op op' : Operacion} (h : Deshace op op') (hlogra : a.Logra op) :
    op'.EnRegla (a.hacer op).2 ∧ op'.Legible := by
  cases h with
  | archivo hora basura basura' path =>
    have hv := vacant_of_crear (hlogra.resolve_right crear_ne_uno)
    exact ⟨⟨ne_nil_of_componentes hv.ne_nil, rfl⟩, legible_of_componentes hv.ne_nil⟩
  | directorio hora basura basura' path =>
    have hv := vacant_of_crear (hlogra.resolve_right crear_ne_uno)
    exact ⟨⟨ne_nil_of_componentes hv.ne_nil, rfl⟩, legible_of_componentes hv.ne_nil⟩
  | nombre basura basura' viejoNombre nuevoNombre hnombre =>
    have hm := movable_of_renombrar (hlogra.resolve_left renombrar_ne_posicion)
    exact ⟨⟨ne_nil_of_componentes hm.target.ne_nil, hnombre, fun hpre => absurd hpre hm.not_above⟩,
      legible_of_componentes hm.target.ne_nil, legible_of_componentes hm.ne_nil⟩

end Sistema

/-- Making files and directories and renaming, and then undoing it all from the last call to the
first: every call that undoes succeeds, and the tree and the free space are what they were. The
induction is on the run: what is undone last is its first call. -/
theorem deshacer {s s' : Pokedex} {es : List (Operacion × ℤ)} {fs : List Operacion} (hs : Fiel s)
    (h : Run (fun s e s' => PasoEnRegla s e s' ∧ (sistema s).Logra e.1) s es s')
    (hfs : List.Forall₂ (fun e f => Deshace e.1 f) es fs) :
    ∃ s'', Run PasoEnRegla s' (fs.reverse.map fun f => (f, 1)) s'' ∧ sistema s'' = sistema s := by
  induction h generalizing fs with
  | nil s =>
    cases hfs
    exact ⟨s, .nil s, rfl⟩
  | @cons s s₁ s' e es hpaso hresto ih =>
    obtain ⟨hpaso, hlogra⟩ := hpaso
    cases hfs with
    | @cons _ f _ fs hd hresto' =>
      obtain ⟨⟨_, hsistema⟩, hs₁⟩ := hpaso.refina hs
      obtain ⟨s₂, hvuelta, hs₂⟩ := ih hs₁ hresto'
      have hfiel := (corre hvuelta (corre (hresto.mono fun _ _ _ h => h.1) hs₁).2).2
      obtain ⟨hop, hleg⟩ := Sistema.enRegla_deshace hd hlogra
      rw [← hsistema, ← hs₂] at hop
      obtain ⟨r, s₃, hultimo⟩ := hfiel.vuelve hop hleg
      obtain ⟨⟨hr, hs₃⟩, _⟩ := hultimo.refina hfiel
      rw [hs₂, hsistema, Sistema.hacer_deshace hd hlogra] at hr hs₃
      obtain rfl : r = 1 := hr
      refine ⟨s₃, ?_, hs₃⟩
      rw [List.reverse_cons, List.map_append]
      exact hvuelta.append (.cons hultimo (.nil s₃))

/-- `/a` is renamed and made again on the small disk, and then it is all undone. -/
theorem deshacer_chica : ∃ es s s' s'', es.map Prod.fst =
      [.renombrar .borrado rutaA rutaB, .crearDirectorio 7 .borrado rutaA] ∧
    (sistema s).arbol.node [[97], [98]] = some (.file bytesAB) ∧ Run PasoEnRegla s es s' ∧
    Run PasoEnRegla s' [(.eliminar .borrado rutaA 0, 1), (.renombrar .borrado rutaB rutaA, 1)] s'' ∧
      sistema s'' = sistema s := by
  have hA : componentes rutaA = [[97]] := by decide
  have hB : componentes rutaB = [[98]] := by decide
  have hlegA : rutaA.Legible := .inr (by decide)
  have hlegB : rutaB.Legible := .inr (by decide)
  obtain ⟨_, s, _, hrun, _, hlugar, hdir, hnodo, hlibre⟩ := corrida_creaAB
  have hs := (corre hrun fiel_discoChico).2
  have hm : (sistema s).arbol.Movable [[97]] [[98]] :=
    ⟨by rw [hdir]; rfl, ⟨hlibre, (sistema s).arbol.root⟩, by decide⟩
  have hrenombra : (sistema s).hacer (.renombrar .borrado rutaA rutaB) =
      (.numero 1, { sistema s with arbol := (sistema s).arbol.move [[97]] [[98]] hm }) := by
    rw [Sistema.hacer, hA, hB, Sistema.renombrar_si hm]
  have hop : (Operacion.renombrar .borrado rutaA rutaB).EnRegla (sistema s) := by
    refine ⟨by decide, ?_, ?_⟩
    · rw [hB]
      simp [Nombrable]
    · rw [hA, hB]
      decide
  obtain ⟨r, s₁, h₁⟩ := hs.vuelve hop ⟨hlegA, hlegB⟩
  obtain ⟨⟨_, hsistema⟩, hs₁⟩ := h₁.refina hs
  rw [hrenombra] at hsistema
  have hv : (sistema s₁).arbol.Vacant [[97]] := by
    rw [hsistema]
    refine ⟨?_, FileTree.root _⟩
    change (sistema s).arbol.movedNode [[97]] [[98]] [[97]] = none
    exact FileTree.movedNode_source (by decide) (List.prefix_refl _)
  have hnombre : Nombrable 17 (componentes rutaA) := by
    rw [hA]
    simp [Nombrable]
  have hlugar₁ : (sistema s₁).entradas ≠ 0 := by
    rw [hsistema]
    exact hlugar.trans_ne (by decide)
  obtain ⟨r', s₂, h₂⟩ := hs₁.vuelve (show (Operacion.crearDirectorio 7 .borrado rutaA).EnRegla _
    from hnombre) ⟨hlegA, by decide⟩
  have hlogra : (sistema s).Logra (.renombrar .borrado rutaA rutaB) := .inr (by rw [hrenombra])
  have hlogra₁ : (sistema s₁).Logra (.crearDirectorio 7 .borrado rutaA) := by
    refine .inl ?_
    rw [Sistema.hacer, Sistema.crear_si hlugar₁ (hA ▸ hv) hnombre]
  obtain ⟨s₃, hvuelta, hfin⟩ := deshacer hs (.cons ⟨h₁, hlogra⟩ (.cons ⟨h₂, hlogra₁⟩ (.nil s₂)))
    (.cons (.nombre .borrado .borrado rutaA rutaB (by rw [hA]; simp [Nombrable]))
      (.cons (.directorio 7 .borrado .borrado rutaA) .nil))
  exact ⟨_, s, s₂, s₃, rfl, hnodo, .cons h₁ (.cons h₂ (.nil s₂)), hvuelta, hfin⟩

/-! ## The blocks -/

def bloquesDeEntrada (e : OsadaFile) : ℕ :=
  if e.state = .regular then bloquesPara e.fileSize else 0

/-- After any run of calls the blocks that the bitmap counts as free are those that the sizes of the
files do not need. -/
theorem espacio_corrida {s s' : Pokedex} {es : List (Operacion × ℤ)} (hs : Fiel s)
    (h : Run PasoEnRegla s es s') :
    obtenerBloquesLibres s'.disco +
        ∑ i ∈ Finset.range 2048, bloquesDeEntrada (s'.disco.archivos i) =
      s'.disco.header.dataBlocks := by
  have hs' := (corre h hs).2
  obtain ⟨cad, hocu, _⟩ := hs'.sano.bienFormado.ocupacion
  have hlargo : ∀ i ∈ Finset.range 2048,
      bloquesDeEntrada (s'.disco.archivos i) = (cad i).length := by
    intro i hi
    rw [Finset.mem_range] at hi
    unfold bloquesDeEntrada
    split
    · next hreg => exact (hs'.justo i hi hreg _ (hocu.cadena hi hreg)).symm
    · next hreg => rw [hocu.cad_eq_nil fun hc => hreg hc.2, List.length_nil]
  rw [Finset.sum_congr rfl hlargo, hocu.toMapeado.obtenerBloquesLibres_eq]
  exact hocu.cuenta fun i hi => hocu.cad_eq_nil fun hc => absurd hc.1 (by omega)

/-- Two of the 16 blocks are those of `/a/b`. -/
theorem espacio_corrida_chica : ∃ es s', es.map Prod.fst = creaAB ∧
    Run PasoEnRegla (.inicial discoChico) es s' ∧ libres s'.disco = 14 ∧
      obtenerBloquesLibres s'.disco +
          ∑ i ∈ Finset.range 2048, bloquesDeEntrada (s'.disco.archivos i) =
        s'.disco.header.dataBlocks := by
  obtain ⟨es, s', hes, hrun, hlibres, _⟩ := corrida_creaAB
  exact ⟨es, s', hes, hrun, hlibres, espacio_corrida fiel_discoChico hrun⟩

end TpSo.Osada
