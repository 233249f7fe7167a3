import Linuse.Sac.Arbol
import Linuse.Sac.Coherencia
import Linuse.Sac.Tabla

/-!
# What the requests touch

A request that is careful touches one node and what its file has, or erases nodes. A careful
creation finds two free blocks, and what is cleared for the pointers of the new file is not in use;
a careful write goes to its places; a file gets larger with blocks that are free and smaller by
blocks that `eliminarNodos` finds at their positions; and what is removed has no blocks to release.
-/

namespace Sac

open Memory Locks Locks.Code

variable {m : Montaje} {s s' t : Estado} {i n : ℤ}

/-! ## Touching a node -/

/-- No two files share a block, the delete mode is off, and the nodes in use have a name, a father
and a type. -/
structure Integro (m : Montaje) (s : Estado) : Prop extends Repartido m s where
  modo : s.delMode = false
  fichas : FichasSanas m s

/-- Only node `i` and what its file has are touched. -/
structure Toca (m : Montaje) (i : ℤ) (s s' : Estado) : Prop extends CambioJusto m i s s' where
  modo : s'.delMode = s.delMode
  sana : 0 ≤ i → i < 1024 → s'.estado m i ≠ borrado → FichaSana m s' i

/-- Nothing is touched. -/
theorem toca_refl (m : Montaje) {s : Estado} (hs : Repartido m s) : Toca m (-1) s s where
  fichas _ _ _ _ _ _ _ := rfl
  zona _ _ _ := ⟨fun _ _ _ => rfl, fun _ _ _ _ _ => rfl⟩
  mapa h := absurd h.1 (by decide)
  aparte _ _ _ hb := absurd hb.1.1 (by decide)
  usados _ _ _ hb := (hs.usado hb).2
  nuevos _ hb := .inr ⟨hb, fun hb' => absurd hb'.1.1 (by decide)⟩
  modo := rfl
  sana h := absurd h (by decide)

/-- The first fields of the node are kept too. -/
theorem CambioJusto.toca (h : CambioJusto m i s s') (hs : Integro m s) (hi : 0 ≤ i)
    (hi' : i < 1024) (hmodo : s'.delMode = s.delMode) (hficha : MismaFicha m i s s') :
    Toca m i s s' where
  toCambioJusto := h
  modo := hmodo
  sana _ _ hvivo := (hs.fichas i hi hi' (hficha.estado ▸ hvivo)).ficha hficha

theorem Integro.toca (h : Integro m s) (ht : Toca m i s s') : Integro m s' where
  toRepartido := h.toRepartido.cambio ht.toCambio
  modo := ht.modo.trans h.modo
  fichas j hj hj' hvivo := by
    rcases eq_or_ne j i with rfl | hne
    · exact ht.sana hj hj' hvivo
    · have hficha := ht.fichas j hj hj' hne
      exact (h.fichas j hj hj' (hficha.estado ▸ hvivo)).ficha hficha

/-- The table of a disk shows the names of its nodes and the bytes of its files. -/
theorem tabla_congr {k : ℕ} (hficha : MismaFicha m k s s')
    (harchivo : EsArchivo m s k → s'.archivo m k = s.archivo m k) :
    s'.tabla m k = s.tabla m k := by
  by_cases hk : k < cantidadNodos
  · have hdatos : s'.datos m k = s.datos m k := by
      rw [Estado.datos, Estado.datos, hficha.estado]
      split_ifs with hocupado
      · rw [harchivo ⟨Int.natCast_nonneg k, by rw [cantidadNodos] at hk; omega, hocupado⟩]
      · rfl
    rw [Estado.tabla, Estado.tabla, hficha.estado, hficha.padre, hficha.nombre, hdatos]
  · rw [tabla_eq_none.2 fun h => hk h.1, tabla_eq_none.2 fun h => hk h.1]

/-- The other nodes of the table. -/
theorem Cambio.tabla {k : ℕ} (h : Cambio m i s s') (hs : Repartido m s) (hne : (k : ℤ) ≠ i) :
    s'.tabla m k = s.tabla m k := by
  by_cases hk : k < cantidadNodos
  · rw [cantidadNodos] at hk
    exact tabla_congr (h.fichas k (Int.natCast_nonneg k) (by omega) hne) fun hk =>
      h.archivo hs hne hk
  · rw [tabla_eq_none.2 fun h => hk h.1, tabla_eq_none.2 fun h => hk h.1]

/-! ## Erasing nodes -/

/-- Nodes of the set are erased, and nothing else changes but the delete mode. -/
structure Retira (m : Montaje) (D : Set ℕ) (s s' : Estado) : Prop where
  solo : BorraSolo m D s s'
  enTabla : ∀ d ∈ D, d < cantidadNodos
  modo : s'.delMode = false

namespace Retira

variable {D : Set ℕ}

/-- A node in use has not been erased. -/
theorem ficha (h : Retira m D s s') (hvivo : s'.estado m i ≠ borrado) : MismaFicha m i s s' := by
  intro x hx hx'
  rcases h.solo x with hmismo | ⟨d, -, heq, hborrado⟩
  · exact hmismo
  · have hnodo := nodo_eq m i
    have hotro := nodo_eq m d
    rw [dirEstado] at heq
    obtain rfl : i = d := by omega
    rw [heq] at hborrado
    exact absurd hborrado hvivo

/-- The nodes that are left are as they were. -/
theorem tabla (h : Retira m D s s') (hs : Repartido m s) {k : ℕ} (hvivo : s'.estado m k ≠ borrado) :
    s'.tabla m k = s.tabla m k := by
  refine tabla_congr (h.ficha hvivo) fun hk => ?_
  obtain ⟨-, hz⟩ := (h.solo.quita hs h.enTabla).zona k (hk.ficha (h.ficha hvivo))
  exact hz.archivo (hs.mapas k hk).toMapa

/-- The table without the nodes of the set, when they are erased. -/
theorem tabla_eq (h : Retira m D s s') (hs : Repartido m s)
    (hD : ∀ d ∈ D, s'.estado m d = borrado) : s'.tabla m = (s.tabla m).erase D := by
  funext k
  rw [Catalog.erase]
  split_ifs with hk
  · exact tabla_eq_none.2 fun hvivo => hvivo.2 (hD k hk)
  by_cases hvivo : s'.estado m k = borrado
  · rw [tabla_eq_none.2 fun h => h.2 hvivo]
    refine (tabla_eq_none.2 fun hantes => ?_).symm
    rcases h.solo (dirEstado m k) with hmismo | ⟨d, hd, heq, -⟩
    · exact hantes.2 (hmismo.symm.trans hvivo)
    · have hnodo := nodo_eq m k
      have hotro := nodo_eq m d
      rw [dirEstado, dirEstado] at heq
      obtain rfl : k = d := by omega
      exact hk hd
  · exact h.tabla hs hvivo

theorem integro (h : Retira m D s s') (hs : Integro m s) : Integro m s' where
  toRepartido := hs.toRepartido.quita (h.solo.quita hs.toRepartido h.enTabla)
  modo := h.modo
  fichas i hi hi' hvivo := by
    have hficha := h.ficha hvivo
    exact (hs.fichas i hi hi' (hficha.estado ▸ hvivo)).ficha hficha

/-- None of them is a file. -/
theorem coherente (h : Retira m D s s') (hm : Formateado m) (hs : Coherente m s)
    (hno : ∀ d ∈ D, s.estado m d ≠ ocupado) : Coherente m s' := by
  refine hs.quita hm (h.solo.quita hs.toRepartido h.enTabla) fun j hj => ⟨hj.1, hj.2.1, ?_⟩
  rcases h.solo (dirEstado m j) with hmismo | ⟨d, hd, heq, -⟩
  · exact hmismo.trans hj.2.2
  · have hnodo := nodo_eq m j
    have hotro := nodo_eq m d
    rw [dirEstado, dirEstado] at heq
    obtain rfl : j = d := by omega
    exact absurd hj.2.2 (hno d hd)

end Retira

/-- Only the nodes that have been erased count. -/
theorem Retira.erased {D : Set ℕ} (h : Retira m D s s') :
    Retira m {d | d ∈ D ∧ s'.estado m d = borrado} s s' where
  solo x := by
    refine (h.solo x).imp_right ?_
    rintro ⟨d, hd, rfl, hborrado⟩
    exact ⟨d, ⟨hd, hborrado⟩, rfl, hborrado⟩
  enTabla d hd := h.enTabla d hd.1
  modo := h.modo

theorem retira_borrar {k : ℕ} (hk : k < cantidadNodos) (s : Estado) :
    Retira m {k} s (({ s with delMode := false } : Estado).ponerEstado m k borrado) where
  solo := by
    have hsolo : BorraSolo m {k} s { s with delMode := false } := .refl _ s
    exact hsolo.ponerEstado rfl
  enTabla d hd := by
    rw [Set.mem_singleton_iff.1 hd]
    exact hk
  modo := rfl

/-- A recursive removal that releases nothing. -/
theorem retira_oRmdir {fuel : ℕ} {path : Ruta} {res : ℤ} (hs : s.delMode = false)
    (hpos : 0 < nodoDe m s path.cola)
    (hsin : ∀ k ∈ ArchivosDebajo m s (nodoDe m s path.cola), SinPosiciones m s ((k : ℤ) - 1))
    (heval : (oRmdir m fuel path).eval s = some (res, s')) :
    Retira m {k | Debajo m s (nodoDe m s path.cola) k ∨ (k : ℤ) = nodoDe m s path.cola - 1} s s' ∧
      ∀ k, Debajo m s (nodoDe m s path.cola) k ∨ (k : ℤ) = nodoDe m s path.cola - 1 →
        ArchivoOCarpeta m s k → s'.estado m k = borrado := by
  have hresuelve : nodoDe m s path.cola ≠ -1 := by omega
  obtain ⟨t, hrec, rfl⟩ : ∃ t, (eliminarRecursivamente m fuel (nodoDe m s path.cola)).eval s =
      some ((), t) ∧ s' = t.ponerEstado m (nodoDe m s path.cola - 1) borrado := by
    rw [oRmdir, eval_bind, eval_dameNodoDe, Option.bind_some, if_neg hresuelve] at heval
    obtain ⟨_, t, hrec, heval⟩ := eval_bind_some heval
    cases heval
    exact ⟨t, hrec, rfl⟩
  obtain ⟨ht, hbarrido, -⟩ := Borrando.eliminarRecursivamente hsin fuel _ s t hpos.le
    (nodoDe_bounds m s hresuelve).2 (fun _ hk => .hijo hk) (.refl _ s) hrec
  have hcast : nodoDe m s path.cola - 1 = ((nodoDe m s path.cola - 1).toNat : ℤ) := by omega
  have hsolo : BorraSolo m
      {k : ℕ | Debajo m s (nodoDe m s path.cola) k ∨ (k : ℤ) = nodoDe m s path.cola - 1} s t :=
    ht.solo.mono fun k hk => .inl hk
  have hborra := hsolo.ponerEstado (i := (nodoDe m s path.cola - 1).toNat) (.inr hcast.symm)
  rw [← hcast] at hborra
  refine ⟨⟨hborra, fun d hd => ?_, ht.delMode hs⟩, fun k hk htipo => ?_⟩
  · rcases hd with hdebajo | hd
    · exact hdebajo.lt
    · rcases nodoDe_cases m s path.cola with heq | heq | ⟨k, hk, heq, -⟩ <;> omega
  · rcases hk with hdebajo | hk
    · exact estado_ponerEstado_borrado t _ (hbarrido k hdebajo htipo)
    · rw [← hk]
      exact estado_ponerEstado m t k borrado

/-! ## Both -/

/-- A node is touched, or nodes are erased. -/
def Efecto (m : Montaje) (s s' : Estado) : Prop :=
  (∃ i, Toca m i s s') ∨ ∃ D, Retira m D s s'

theorem Toca.efecto (h : Toca m i s s') : Efecto m s s' := .inl ⟨i, h⟩

theorem Retira.efecto {D : Set ℕ} (h : Retira m D s s') : Efecto m s s' := .inr ⟨D, h⟩

theorem efecto_refl (hs : Repartido m s) : Efecto m s s := (toca_refl m hs).efecto

theorem Integro.efecto (hs : Integro m s) (h : Efecto m s s') : Integro m s' := by
  rcases h with ⟨i, h⟩ | ⟨D, h⟩
  · exact hs.toca h
  · exact h.integro hs

/-- The bitmap stays right when no file is erased. -/
theorem Coherente.efecto (hs : Coherente m s) (hm : Formateado m) (h : Efecto m s s')
    (hdeja : ∀ d < cantidadNodos, s.estado m d = ocupado → s'.estado m d ≠ borrado) :
    Coherente m s' := by
  rcases h with ⟨i, h⟩ | ⟨D, h⟩
  · exact hs.cambio h.toCambioJusto
  · exact h.erased.coherente hm hs fun d hd hocupado =>
      hdeja d (h.enTabla d hd.1) hocupado hd.2

end Sac
