import Linuse.Collections.Ownership
import Linuse.Sac.Ideal
import Linuse.Sac.Subarbol

/-!
# The blocks of the disk have one owner

Each file has its pointer blocks and its data blocks, and shares none of them (`Repartido`). An
operation that changes one node keeps this when the other nodes keep their names, the other files
their blocks, and what the file has then is nobody else's (`Repartido.cambio`); so does one that
erases nodes (`Repartido.quita`). When moreover what a file loses is released, the blocks of the
data area that are marked in the bitmap are those at a slot of a file, each at one slot
(`Coherente.bienMarcado`).
-/

namespace Sac

open Memory Locks Locks.Code

/-- Node `i` is a regular file. -/
def EsArchivo (m : Montaje) (s : Estado) (i : ℤ) : Prop :=
  0 ≤ i ∧ i < 1024 ∧ s.estado m i = ocupado

/-- The blocks of node `i`, when it is a regular file. -/
def Estado.propios (m : Montaje) (s : Estado) (i : ℤ) : Set ℤ :=
  {b | EsArchivo m s i ∧ b ∈ Bloques m s i (bloquesDe (s.tamanio m i))}

/-- The blocks of the data area that are marked. -/
def Estado.marcados (m : Montaje) (s : Estado) : Set ℤ :=
  {b | m.base ≤ b ∧ b < m.bloques ∧ s.testBit m b = true}

/-- The maps of the files are complete, and no two files share a block. -/
structure Repartido (m : Montaje) (s : Estado) : Prop where
  mapas : ∀ i, EsArchivo m s i → MapaCompleto m s i (bloquesDe (s.tamanio m i))
  ajenos : Owned (s.propios m)

/-- Moreover each block that is marked belongs to a file. -/
structure Coherente (m : Montaje) (s : Estado) : Prop extends Repartido m s where
  cubiertos : Covers (s.propios m) (s.marcados m)

/-! ## Slots -/

/-- A slot of a file for a block: an entry of `bloques_indirectos`, or one for the data in one of
its pointer blocks. -/
inductive Ranura
  | punteros (i : ℤ) (p : ℕ)
  | datos (i : ℤ) (j : ℕ)

namespace Ranura

/-- The node of the slot. -/
def nodo : Ranura → ℤ
  | punteros i _ => i
  | datos i _ => i

/-- The block at the slot. -/
def bloque (m : Montaje) (s : Estado) : Ranura → ℤ
  | punteros i p => s.indirecto m i p
  | datos i j => s.dato m i j

/-- The slot is one of a file: the size of the file reaches it. -/
def EnUso (m : Montaje) (s : Estado) : Ranura → Prop
  | punteros i p => EsArchivo m s i ∧ 1024 * p < bloquesDe (s.tamanio m i)
  | datos i j => EsArchivo m s i ∧ j < bloquesDe (s.tamanio m i)

end Ranura

/-- The blocks at the slots are marked blocks of the data area, and no block is at two slots. -/
structure SinChoques (m : Montaje) (s : Estado) : Prop where
  usada : ∀ r : Ranura, r.EnUso m s →
    m.base ≤ r.bloque m s ∧ EnBitmap m (r.bloque m s) ∧ s.testBit m (r.bloque m s) = true
  unica : ∀ r r' : Ranura, r.EnUso m s → r'.EnUso m s → r.bloque m s = r'.bloque m s → r = r'

/-- A block of the data area is marked if and only if it is at exactly one slot, and no block is
at two. -/
structure BienMarcado (m : Montaje) (s : Estado) : Prop where
  marcado_iff : ∀ b, m.base ≤ b → b < m.bloques →
    (s.testBit m b = true ↔ ∃! r : Ranura, r.EnUso m s ∧ r.bloque m s = b)
  unica : ∀ r r' : Ranura, r.EnUso m s → r'.EnUso m s → r.bloque m s = r'.bloque m s → r = r'

variable {m : Montaje} {s s' s'' : Estado} {i j : ℤ} {k : ℕ}

theorem Ranura.mem_propios {r : Ranura} (hr : r.EnUso m s) :
    r.bloque m s ∈ s.propios m r.nodo := by
  cases r with
  | punteros i p =>
      refine ⟨hr.1, 1024 * p, hr.2, .inr ?_⟩
      rw [Nat.mul_div_cancel_left p (by decide)]
      rfl
  | datos i j => exact ⟨hr.1, j, hr.2, .inl rfl⟩

theorem exists_ranura {b : ℤ} (hb : b ∈ s.propios m i) :
    ∃ r : Ranura, r.EnUso m s ∧ r.bloque m s = b := by
  obtain ⟨harchivo, p, hp, heq | heq⟩ := hb
  · exact ⟨.datos i p, ⟨harchivo, hp⟩, heq⟩
  · exact ⟨.punteros i (p / 1024), ⟨harchivo, by omega⟩, heq⟩

namespace Repartido

/-- A file has its blocks at one slot each. -/
theorem ranura_inj (h : Repartido m s) {r r' : Ranura} (hr : r.EnUso m s) (hr' : r'.EnUso m s)
    (hnodo : r.nodo = r'.nodo) (heq : r.bloque m s = r'.bloque m s) : r = r' := by
  cases r with
  | punteros i p =>
      have hmapa := h.mapas i hr.1
      cases r' with
      | punteros i' p' =>
          obtain rfl : i = i' := hnodo
          have hinj := hmapa.indirecto_inj (1024 * p) hr.2 (1024 * p') hr'.2
          rw [Nat.mul_div_cancel_left p (by decide), Nat.mul_div_cancel_left p' (by decide)] at hinj
          rw [hinj heq]
      | datos i' j =>
          obtain rfl : i = i' := hnodo
          have haparte := hmapa.aparte j hr'.2 (1024 * p) hr.2
          rw [Nat.mul_div_cancel_left p (by decide)] at haparte
          exact absurd heq.symm haparte
  | datos i j =>
      have hmapa := h.mapas i hr.1
      cases r' with
      | punteros i' p' =>
          obtain rfl : i = i' := hnodo
          have haparte := hmapa.aparte j hr.2 (1024 * p') hr'.2
          rw [Nat.mul_div_cancel_left p' (by decide)] at haparte
          exact absurd heq haparte
      | datos i' j' =>
          obtain rfl : i = i' := hnodo
          rw [hmapa.dato_inj j hr.2 j' hr'.2 heq]

/-- The blocks of a file are marked. -/
theorem usado (h : Repartido m s) {b : ℤ} (hb : b ∈ s.propios m i) :
    EnBitmap m b ∧ s.testBit m b = true := by
  obtain ⟨harchivo, p, hp, rfl | rfl⟩ := hb
  · exact ⟨(h.mapas i harchivo).dato_enBitmap p hp, (h.mapas i harchivo).dato_usado p hp⟩
  · exact ⟨(h.mapas i harchivo).indirecto_enBitmap p hp, (h.mapas i harchivo).indirecto_usado p hp⟩

theorem ajeno (h : Repartido m s) (hi : EsArchivo m s i) (hj : EsArchivo m s j) (hne : j ≠ i) :
    Ajeno m s i (bloquesDe (s.tamanio m i)) j :=
  ⟨hne, h.mapas j hj, fun b hb hb' => hne (h.ajenos j i b ⟨hj, hb⟩ ⟨hi, hb'⟩)⟩

end Repartido

theorem Repartido.sinChoques (h : Repartido m s) : SinChoques m s where
  usada r hr := by
    have hmem := Ranura.mem_propios hr
    exact ⟨(h.mapas r.nodo hmem.1).toMapa.base_le hmem.2, h.usado hmem⟩
  unica _ _ := h.ajenos.slot_inj (fun _ => Ranura.mem_propios) fun _ _ => h.ranura_inj

theorem Coherente.bienMarcado (h : Coherente m s) : BienMarcado m s where
  marcado_iff b hb hlt := by
    constructor
    · exact fun husado => h.ajenos.existsUnique_slot (fun _ => Ranura.mem_propios)
        (fun _ _ => h.ranura_inj) h.cubiertos (fun _ _ => exists_ranura) ⟨hb, hlt, husado⟩
    · rintro ⟨r, ⟨hr, rfl⟩, -⟩
      exact (h.usado (Ranura.mem_propios hr)).2
  unica _ _ := h.ajenos.slot_inj (fun _ => Ranura.mem_propios) fun _ _ => h.ranura_inj

/-! ## One node changes -/

theorem EsArchivo.ficha (h : EsArchivo m s i) (hficha : MismaFicha m i s s') : EsArchivo m s' i :=
  ⟨h.1, h.2.1, hficha.estado.trans h.2.2⟩

theorem EsArchivo.de_ficha (h : EsArchivo m s' i) (hficha : MismaFicha m i s s') :
    EsArchivo m s i :=
  ⟨h.1, h.2.1, hficha.estado.symm.trans h.2.2⟩

/-- Only node `i` and what its file has have changed: the other nodes keep their names and the
other files their bytes, the map of the file is complete, and what it has is nobody else's. -/
structure Cambio (m : Montaje) (i : ℤ) (s s' : Estado) : Prop where
  fichas : ∀ j, 0 ≤ j → j < 1024 → j ≠ i → MismaFicha m j s s'
  zona : ∀ j, j ≠ i → EsArchivo m s j → MismaZona m j (bloquesDe (s.tamanio m j)) s s'
  mapa : EsArchivo m s' i → MapaCompleto m s' i (bloquesDe (s'.tamanio m i))
  aparte : ∀ j, j ≠ i → ∀ b ∈ s'.propios m i, b ∉ s.propios m j
  usados : ∀ j, j ≠ i → ∀ b ∈ s.propios m j, s'.testBit m b = true

/-- Moreover what is marked now is of the file, or was marked before and was not. -/
structure CambioJusto (m : Montaje) (i : ℤ) (s s' : Estado) : Prop extends Cambio m i s s' where
  nuevos : ∀ b ∈ s'.marcados m, b ∈ s'.propios m i ∨ b ∈ s.marcados m ∧ b ∉ s.propios m i

namespace Cambio

theorem antes (h : Cambio m i s s') (hne : j ≠ i) (hj : EsArchivo m s' j) : EsArchivo m s j :=
  hj.de_ficha (h.fichas j hj.1 hj.2.1 hne)

/-- What another file has. -/
theorem propios_eq (h : Cambio m i s s') (hs : Repartido m s) (hne : j ≠ i) :
    s'.propios m j = s.propios m j := by
  ext b
  constructor
  · rintro ⟨harchivo, hb⟩
    have hviejo := h.antes hne harchivo
    have hz := h.zona j hne hviejo
    rw [hz.tamanio, hz.bloques_eq (hs.mapas j hviejo).toMapa] at hb
    exact ⟨hviejo, hb⟩
  · rintro ⟨harchivo, hb⟩
    have hz := h.zona j hne harchivo
    refine ⟨harchivo.ficha hz.ficha, ?_⟩
    rwa [hz.tamanio, hz.bloques_eq (hs.mapas j harchivo).toMapa]

/-- The other files keep their bytes. -/
theorem archivo (h : Cambio m i s s') (hs : Repartido m s) (hne : j ≠ i) (hj : EsArchivo m s j) :
    s'.archivo m j = s.archivo m j :=
  (h.zona j hne hj).archivo (hs.mapas j hj).toMapa

end Cambio

theorem Repartido.cambio (h : Repartido m s) (hc : Cambio m i s s') : Repartido m s' := by
  refine ⟨fun j hj => ?_, h.ajenos.update i (fun j hj => (hc.propios_eq h hj).le) hc.aparte⟩
  rcases eq_or_ne j i with rfl | hne
  · exact hc.mapa hj
  · have hviejo := hc.antes hne hj
    have hz := hc.zona j hne hviejo
    rw [hz.tamanio]
    exact hz.mapaCompleto (h.mapas j hviejo) fun b hb _ _ => hc.usados j hne b ⟨hviejo, hb⟩

theorem Coherente.cambio (h : Coherente m s) (hc : CambioJusto m i s s') : Coherente m s' where
  toRepartido := h.toRepartido.cambio hc.toCambio
  cubiertos := h.cubiertos.update i (fun _ hj => (hc.propios_eq h.toRepartido hj).ge) hc.nuevos

theorem mem_marcados_enBitmap (hm : Formateado m) {b : ℤ} (hb : b ∈ s.marcados m) :
    EnBitmap m b := by
  have hbase := base_nonneg m
  have hle := hb.1
  exact hm.enBitmap (by omega) hb.2.1

/-- A file that has its blocks, and more. -/
theorem Extiende.cambio (hm : Formateado m) (hs : Repartido m s) (hi : EsArchivo m s i)
    (h : Extiende m i (bloquesDe (s.tamanio m i)) (bloquesDe (s'.tamanio m i)) s s')
    (hmapa : MapaCompleto m s' i (bloquesDe (s'.tamanio m i))) : CambioJusto m i s s' where
  fichas j hj hj' _ := h.fichas j hj hj'
  zona j hne hj := h.zona j (hs.ajeno hi hj hne)
  mapa _ := hmapa
  aparte j hne b hb hb' := h.aparte j (hs.ajeno hi hb'.1 hne) b hb'.2 hb.2
  usados _ _ b hb := h.crecen b (hs.usado hb).1 (hs.usado hb).2
  nuevos b hb := by
    have harchivo := hi.ficha (h.fichas i hi.1 hi.2.1)
    rcases h.nuevos b (mem_marcados_enBitmap hm hb) hb.2.2 with hviejo | hnuevo
    · by_cases hpropio : b ∈ s.propios m i
      · exact .inl ⟨harchivo, h.bloques hpropio.2⟩
      · exact .inr ⟨⟨hb.1, hb.2.1, hviejo⟩, hpropio⟩
    · exact .inl ⟨harchivo, hnuevo⟩

/-! ## The slot of a node -/

/-- Only bytes of the slot of node `i` have changed. -/
def SoloNodo (m : Montaje) (i : ℤ) (s s' : Estado) : Prop :=
  ∀ x, x < m.nodo i ∨ m.nodo i + 4096 ≤ x → s'.mem x = s.mem x

namespace SoloNodo

theorem ficha (h : SoloNodo m i s s') (hne : j ≠ i) : MismaFicha m j s s' := by
  intro x hx hx'
  have hnodo := nodo_eq m i
  have hotro := nodo_eq m j
  exact h x (by omega)

theorem testBit (h : SoloNodo m i s s') (hi : 0 ≤ i) {b : ℤ} (hb : EnBitmap m b) :
    s'.testBit m b = s.testBit m b := by
  have hnodo := nodo_eq m i
  exact testBit_of_antes hb fun a ha => h a (.inl (by omega))

theorem zona (h : SoloNodo m i s s') (hi : i < 1024) (hne : j ≠ i) (hmapa : Mapa m s j k) :
    MismaZona m j k s s' := by
  have hnodo := nodo_eq m i
  have hotro := nodo_eq m j
  have h1024 := nodo_eq m 1024
  refine ⟨fun x hx hx' => h x (by omega), fun b hb x hx _ => ?_⟩
  have hdatos := enTabla_lt_bloque (hmapa.base_le hb)
  exact h x (.inr (by omega))

/-- A node that is no file, before and after. -/
theorem cambio (h : SoloNodo m i s s') (hm : Formateado m) (hs : Repartido m s) (hi : 0 ≤ i)
    (hi' : i < 1024) (hno : ¬ EsArchivo m s i) (hno' : ¬ EsArchivo m s' i) :
    CambioJusto m i s s' where
  fichas _ _ _ hne := h.ficha hne
  zona j hne hj := h.zona hi' hne (hs.mapas j hj).toMapa
  mapa harchivo := absurd harchivo hno'
  aparte _ _ _ hb := absurd hb.1 hno'
  usados _ _ _ hb := (h.testBit hi (hs.usado hb).1).trans (hs.usado hb).2
  nuevos _ hb :=
    .inr ⟨⟨hb.1, hb.2.1, (h.testBit hi (mem_marcados_enBitmap hm hb)).symm.trans hb.2.2⟩,
      fun hb' => hno hb'.1⟩

end SoloNodo

/-- The pointers of a node and what comes after them on the disk are kept. -/
theorem Mapa.bytes_congr (hmapa : Mapa m s i k)
    (h : ∀ x, dirIndirecto m i 0 ≤ x → s'.mem x = s.mem x) :
    (∀ p : ℕ, s'.indirecto m i p = s.indirecto m i p) ∧
      (∀ p < k, s'.dato m i p = s.dato m i p) ∧
      ∀ x : ℕ, x / 4096 < k → s'.byteDe m i x = s.byteDe m i x := by
  have hnodo := nodo_eq m i
  have h1024 := nodo_eq m 1024
  have hlt := hmapa.nodo_lt
  have hpuntero : ∀ p : ℕ, s'.indirecto m i p = s.indirecto m i p := fun p =>
    load32_congr fun x hx => h _ (by rw [dirIndirecto, dirIndirecto]; omega)
  have hdato : ∀ p < k, s'.dato m i p = s.dato m i p := by
    intro p hp
    have hdatos := enTabla_lt_bloque (hmapa.base_le_indirecto p hp)
    rw [Estado.dato, hpuntero, Estado.dato]
    exact load32_congr fun x hx => h _ (by rw [dirIndirecto]; omega)
  refine ⟨hpuntero, hdato, fun x hx => ?_⟩
  have hdatos := enTabla_lt_bloque (hmapa.base_le_dato _ hx)
  rw [Estado.byteDe, hdato _ hx, Estado.byteDe]
  exact h _ (by rw [dirIndirecto]; omega)

/-- Fields of a file that are no pointers: what matters is the number of blocks. -/
theorem SoloNodo.cambio_campos (h : SoloNodo m i s s') (hm : Formateado m) (hs : Repartido m s)
    (hi : EsArchivo m s i) (hestado : s'.estado m i = s.estado m i)
    (hindirecto : ∀ x, dirIndirecto m i 0 ≤ x → s'.mem x = s.mem x)
    (hbloques : bloquesDe (s'.tamanio m i) = bloquesDe (s.tamanio m i)) : CambioJusto m i s s' := by
  have hmapa := hs.mapas i hi
  have harchivo : EsArchivo m s' i := ⟨hi.1, hi.2.1, hestado.trans hi.2.2⟩
  obtain ⟨hpuntero, hdato, -⟩ := hmapa.toMapa.bytes_congr hindirecto
  have hmismos : s'.propios m i = s.propios m i := by
    ext b
    rw [Estado.propios, Estado.propios, Set.mem_ofPred_eq, Set.mem_ofPred_eq, hbloques,
      bloques_congr (fun p _ => hpuntero _) hdato]
    exact and_congr_left fun _ => iff_of_true harchivo hi
  refine ⟨⟨fun _ _ _ hne => h.ficha hne, fun j hne hj => h.zona hi.2.1 hne (hs.mapas j hj).toMapa,
    fun _ => ?_, fun j hne b hb hb' => ?_, fun _ _ b hb => ?_⟩, fun b hb => ?_⟩
  · rw [hbloques]
    exact hmapa.congr (fun p _ => hpuntero _) hdato fun b _ hb husado => by
      rw [h.testBit hi.1 hb, husado]
  · rw [hmismos] at hb
    exact hne (hs.ajenos j i b hb' hb)
  · rw [h.testBit hi.1 (hs.usado hb).1]
    exact (hs.usado hb).2
  · rw [hmismos]
    by_cases hpropio : b ∈ s.propios m i
    · exact .inl hpropio
    · refine .inr ⟨⟨hb.1, hb.2.1, ?_⟩, hpropio⟩
      rw [← h.testBit hi.1 (mem_marcados_enBitmap hm hb)]
      exact hb.2.2

theorem SoloCampos.soloNodo (h : SoloCampos m i s s') : SoloNodo m i s s' := fun x hx =>
  h x (by omega)

theorem SoloCampos.ficha (h : SoloCampos m i s s') : MismaFicha m i s s' := fun x _ hx =>
  h x (.inl hx)

/-- The size and the dates of a node. -/
theorem SoloCampos.cambio (h : SoloCampos m i s s') (hm : Formateado m) (hs : Repartido m s)
    (hi : 0 ≤ i) (hi' : i < 1024)
    (hbloques : EsArchivo m s i → bloquesDe (s'.tamanio m i) = bloquesDe (s.tamanio m i)) :
    CambioJusto m i s s' := by
  by_cases harchivo : EsArchivo m s i
  · exact h.soloNodo.cambio_campos hm hs harchivo h.ficha.estado
      (fun x hx => h x (.inr (by rw [dirIndirecto] at hx; omega))) (hbloques harchivo)
  · exact h.soloNodo.cambio hm hs hi hi' harchivo fun harchivo' =>
      harchivo (harchivo'.de_ficha h.ficha)

/-! ## Nodes are erased -/

/-- The files that are left were files, with their nodes and blocks, and the bitmap is as it
was. -/
structure Quita (m : Montaje) (s s' : Estado) : Prop where
  zona : ∀ j, EsArchivo m s' j → EsArchivo m s j ∧
    MismaZona m j (bloquesDe (s.tamanio m j)) s s'
  bits : ∀ b, EnBitmap m b → s'.testBit m b = s.testBit m b

theorem Quita.propios (h : Quita m s s') (hs : Repartido m s) (hj : EsArchivo m s' j) :
    s'.propios m j = s.propios m j := by
  obtain ⟨hviejo, hz⟩ := h.zona j hj
  ext b
  rw [Estado.propios, Estado.propios, Set.mem_ofPred_eq, Set.mem_ofPred_eq, hz.tamanio,
    hz.bloques_eq (hs.mapas j hviejo).toMapa]
  exact and_congr_left fun _ => iff_of_true hj hviejo

theorem Repartido.quita (h : Repartido m s) (hq : Quita m s s') : Repartido m s' where
  mapas j hj := by
    obtain ⟨hviejo, hz⟩ := hq.zona j hj
    rw [hz.tamanio]
    exact hz.mapaCompleto (h.mapas j hviejo) fun b _ hb husado => by rw [hq.bits b hb, husado]
  ajenos := h.ajenos.mono fun j b hb => hq.propios h hb.1 ▸ hb

/-- No file is erased. -/
theorem Coherente.quita (h : Coherente m s) (hm : Formateado m) (hq : Quita m s s')
    (hquedan : ∀ j, EsArchivo m s j → EsArchivo m s' j) : Coherente m s' where
  toRepartido := h.toRepartido.quita hq
  cubiertos b hb := by
    have hviejo : b ∈ s.marcados m :=
      ⟨hb.1, hb.2.1, (hq.bits b (mem_marcados_enBitmap hm hb)).symm.trans hb.2.2⟩
    obtain ⟨j, hj⟩ := h.cubiertos b hviejo
    refine ⟨j, ?_⟩
    rwa [hq.propios h.toRepartido (hquedan j hj.1)]

theorem BorraSolo.quita {D : Set ℕ} (h : BorraSolo m D s s') (hs : Repartido m s)
    (hD : ∀ d ∈ D, d < cantidadNodos) : Quita m s s' := by
  have hfuera : ∀ x, x < m.nodo 0 ∨ m.nodo 1024 ≤ x → s'.mem x = s.mem x := fun x =>
    h.fuera fun d hd => hD d hd
  refine ⟨fun j hj => ?_, fun b hb => testBit_of_antes hb fun a ha => hfuera a (.inl ha)⟩
  have hestado : s'.estado m j = s.estado m j := by
    apply h.estado
    rw [hj.2.2]
    decide
  have hviejo : EsArchivo m s j := ⟨hj.1, hj.2.1, hestado.symm.trans hj.2.2⟩
  refine ⟨hviejo, fun x hx hx' => ?_, fun b hb x hx _ => ?_⟩
  · rcases h x with hmismo | ⟨d, -, heq, hborrado⟩
    · exact hmismo
    · have hnodo := nodo_eq m j
      have hotro := nodo_eq m d
      rw [dirEstado] at heq
      obtain rfl : j = d := by omega
      have hocupado : s'.mem (m.nodo d) = ocupado := hj.2.2
      rw [← heq, hborrado] at hocupado
      cases hocupado
  · have h1024 := nodo_eq m 1024
    have hdatos := enTabla_lt_bloque ((hs.mapas j hviejo).base_le hb)
    exact hfuera x (.inr (by omega))

/-! ## A smaller file -/

section Corte

variable {K L : ℕ} {n : ℤ}

theorem sobrantes_subset : Sobrantes m s i K L ⊆ Bloques m s i L := by
  rintro b (⟨j, -, hj, heq⟩ | ⟨p, -, hp, heq⟩)
  · exact ⟨j, hj, .inl heq⟩
  · refine ⟨1024 * p, hp, .inr ?_⟩
    rwa [Nat.mul_div_cancel_left p (by decide)]

theorem mem_bloques_or_sobrantes {b : ℤ} (hb : b ∈ Bloques m s i L) :
    b ∈ Bloques m s i K ∨ b ∈ Sobrantes m s i K L := by
  obtain ⟨p, hp, heq | heq⟩ := hb
  · rcases lt_or_ge p K with hlt | hge
    · exact .inl ⟨p, hlt, .inl heq⟩
    · exact .inr (.inl ⟨p, hge, hp, heq⟩)
  · rcases lt_or_ge (1024 * (p / 1024)) K with hlt | hge
    · refine .inl ⟨1024 * (p / 1024), hlt, .inr ?_⟩
      rwa [Nat.mul_div_cancel_left _ (by decide)]
    · exact .inr (.inr ⟨p / 1024, hge, by omega, heq⟩)

/-- What is kept of a file is not among the blocks that it loses. -/
theorem not_mem_sobrantes (hmapa : MapaCompleto m s i L) (hK : K ≤ L) {b : ℤ}
    (hb : b ∈ Bloques m s i K) : b ∉ Sobrantes m s i K L := by
  obtain ⟨p, hp, rfl | rfl⟩ := hb
  · rintro (⟨j, hj, hjL, heq⟩ | ⟨q, hq, hqL, heq⟩)
    · have hinj := hmapa.dato_inj j hjL p (by omega) heq
      omega
    · refine hmapa.aparte p (by omega) (1024 * q) hqL ?_
      rw [Nat.mul_div_cancel_left q (by decide), heq]
  · rintro (⟨j, hj, hjL, heq⟩ | ⟨q, hq, hqL, heq⟩)
    · exact hmapa.aparte j hjL p (by omega) heq
    · have hinj := hmapa.indirecto_inj (1024 * q) hqL p (by omega)
      rw [Nat.mul_div_cancel_left q (by decide)] at hinj
      have hmismo := hinj heq
      omega

/-- A file that is cut to `n` bytes, when nothing but the bitmap has changed. -/
theorem Recortado.cambio (h : Recortado m i n s s') (hm : Formateado m) (hs : Repartido m s)
    (hi : EsArchivo m s i) (hmem : ∀ a, m.nodo 0 ≤ a → s'.mem a = s.mem a) (hn : 0 ≤ n)
    (hle : n ≤ s.tamanio m i) : CambioJusto m i s (s'.ponerTamanio m i n) := by
  have hmapa := hs.mapas i hi
  have hmax : s.tamanio m i < 4294967296 := load32_lt _ _
  have hK : bloquesDe n ≤ bloquesDe (s.tamanio m i) := by
    rw [bloquesDe, bloquesDe, posiciones, posiciones]
    omega
  have hcampos := soloCampos_ponerTamanio m i s' n
  have htamanio : (s'.ponerTamanio m i n).tamanio m i = n := by
    rw [tamanio_ponerTamanio, unsigned_eq_self hn (by omega)]
  have hbits : ∀ b, EnBitmap m b → ((s'.ponerTamanio m i n).testBit m b = true ↔
      s.testBit m b = true ∧ b ∉ Sobrantes m s i (bloquesDe n) (bloquesDe (s.tamanio m i))) :=
    fun b hb => by rw [hcampos.testBit hi.1 hb, h.bits b hb]
  have hnodo := nodo_eq m i
  have hi0 := hi.1
  have hi' := hi.2.1
  have h1024 := nodo_eq m 1024
  have hresto : ∀ x, m.nodo 0 ≤ x → (x < m.nodo i + 76 ∨ m.nodo i + 96 ≤ x) →
      (s'.ponerTamanio m i n).mem x = s.mem x := fun x hx hx' =>
    (hcampos x hx').trans (hmem x hx)
  have hindirecto : ∀ p < bloquesDe n, (s'.ponerTamanio m i n).indirecto m i (p / 1024 : ℕ) =
      s.indirecto m i (p / 1024 : ℕ) := fun p hp => (hcampos.indirecto _).trans (h.mapa p hp).1
  have hdato : ∀ p < bloquesDe n, (s'.ponerTamanio m i n).dato m i p = s.dato m i p := by
    intro p hp
    have hdatos := enTabla_lt_bloque (hmapa.base_le_indirecto p (by omega))
    rw [Estado.dato, hindirecto p hp, Estado.dato]
    exact load32_congr fun x hx => hresto _ (by omega) (.inr (by omega))
  have hbloques : Bloques m (s'.ponerTamanio m i n) i (bloquesDe n) =
      Bloques m s i (bloquesDe n) := bloques_congr hindirecto hdato
  have hmenos : ∀ b ∈ Bloques m s i (bloquesDe n), b ∈ s.propios m i := by
    rintro b ⟨p, hp, hb⟩
    exact ⟨hi, p, by omega, hb⟩
  have hfichas : ∀ j, 0 ≤ j → j < 1024 → MismaFicha m j s (s'.ponerTamanio m i n) := by
    intro j hj hj' x hx hx'
    have hotro := nodo_eq m j
    exact hresto x (by omega) (by omega)
  refine ⟨⟨fun j hj hj' _ => hfichas j hj hj', fun j hne hj => ?_, fun _ => ?_,
    fun j hne b hb hb' => ?_, fun j hne b hb => ?_⟩, fun b hb => ?_⟩
  · have hotro := nodo_eq m j
    have hj0 := hj.1
    refine ⟨fun x hx hx' => hresto x (by omega) (by omega), fun b hb x hx _ => ?_⟩
    have hdatos := enTabla_lt_bloque ((hs.mapas j hj).base_le hb)
    exact hresto x (by omega) (.inr (by omega))
  · rw [htamanio]
    refine (hmapa.mono hK).congr hindirecto hdato fun b hb hbitmap husado => ?_
    exact (hbits b hbitmap).2 ⟨husado, not_mem_sobrantes hmapa hK hb⟩
  · have hb := hb.2
    rw [htamanio, hbloques] at hb
    exact hne (hs.ajenos j i b hb' (hmenos b hb))
  · refine (hbits b (hs.usado hb).1).2 ⟨(hs.usado hb).2, fun hsobra => ?_⟩
    exact hne (hs.ajenos j i b hb ⟨hi, sobrantes_subset hsobra⟩)
  · obtain ⟨hviejo, hno⟩ := (hbits b (mem_marcados_enBitmap hm hb)).1 hb.2.2
    by_cases hpropio : b ∈ s.propios m i
    · refine .inl ⟨hi.ficha (hfichas i hi.1 hi.2.1), ?_⟩
      rw [htamanio, hbloques]
      exact (mem_bloques_or_sobrantes hpropio.2).resolve_right hno
    · exact .inr ⟨⟨hb.1, hb.2.1, hviejo⟩, hpropio⟩

end Corte

/-! ## What takes blocks leaves the counter and the delete mode -/

/-- Only the memory has changed. -/
def SoloMemoria (s s' : Estado) : Prop := ∃ mem, s' = s.conMem mem

namespace SoloMemoria

theorem refl (s : Estado) : SoloMemoria s s := ⟨s.mem, rfl⟩

theorem trans (h : SoloMemoria s t) (h' : SoloMemoria t s') : SoloMemoria s s' := by
  obtain ⟨_, rfl⟩ := h
  obtain ⟨mem, rfl⟩ := h'
  exact ⟨mem, rfl⟩

theorem delMode (h : SoloMemoria s s') : s'.delMode = s.delMode := by
  obtain ⟨_, rfl⟩ := h
  rfl

theorem contador (h : SoloMemoria s s') : s'.bitmapFreeBlocks = s.bitmapFreeBlocks := by
  obtain ⟨_, rfl⟩ := h
  rfl

end SoloMemoria

theorem soloMemoria_obtenerBloqueLibre {r : ℤ × Estado} (h : obtenerBloqueLibre m s = some r) :
    SoloMemoria s r.2 := by
  obtain ⟨b, -, rfl⟩ := Option.map_eq_some_iff.1 h
  exact ⟨_, rfl⟩

theorem soloMemoria_agregarBloqueLibre {b : ℤ} {r : ℤ × Estado}
    (h : agregarBloqueLibre m i b s = some r) : SoloMemoria s r.2 := by
  rw [agregarBloqueLibre] at h
  dsimp only at h
  split_ifs at h
  · cases h
    exact .refl s
  · obtain ⟨q, hq, h⟩ := Option.bind_eq_some_iff.1 h
    have hobtiene := soloMemoria_obtenerBloqueLibre hq
    cases h
    exact hobtiene.trans ⟨_, rfl⟩
  · cases h
    exact ⟨_, rfl⟩

theorem soloMemoria_agregarBloques {espacio : ℤ} :
    ∀ {n : ℕ} {size : ℤ} {s : Estado}, agregarBloques m i espacio n size s = some s' →
      SoloMemoria s s'
  | 0, _, _, h => by cases h
  | n + 1, size, s, h => by
      rw [agregarBloques] at h
      split_ifs at h
      · obtain ⟨q, hq, h⟩ := Option.bind_eq_some_iff.1 h
        obtain ⟨q', hq', h⟩ := Option.bind_eq_some_iff.1 h
        have htoma := (soloMemoria_obtenerBloqueLibre hq).trans
          (soloMemoria_agregarBloqueLibre hq')
        exact (htoma.trans ⟨_, rfl⟩).trans (soloMemoria_agregarBloques h)
      · cases h
        exact ⟨_, rfl⟩

theorem soloMemoria_volcar (espacio a : ℤ) (e : Escritura) (s : Estado) :
    SoloMemoria s (volcar m i espacio a e s).2 := by
  rw [volcar]
  dsimp only
  split_ifs <;> exact ⟨_, rfl⟩

theorem soloMemoria_bucleWrite {ahora : ℕ} {size : ℤ} :
    ∀ {n : ℕ} {e : Escritura} {s : Estado} {r : ℤ × Estado},
      bucleWrite m ahora i size n e s = some r → SoloMemoria s r.2
  | 0, _, _, _, h => by cases h
  | n + 1, e, s, r, h => by
      rw [bucleWrite] at h
      dsimp only at h
      split_ifs at h
      · cases h
        exact ⟨_, rfl⟩
      · cases h
        exact .refl s
      · obtain ⟨q, hq, h⟩ := Option.bind_eq_some_iff.1 h
        obtain ⟨q', hq', h⟩ := Option.bind_eq_some_iff.1 h
        have htoma := (soloMemoria_obtenerBloqueLibre hq).trans
          (soloMemoria_agregarBloqueLibre hq')
        split_ifs at h
        · cases h
          exact htoma
        · exact (htoma.trans (soloMemoria_volcar _ _ _ _)).trans (soloMemoria_bucleWrite h)
      · exact (soloMemoria_volcar _ _ _ _).trans (soloMemoria_bucleWrite h)

/-! ## A new node -/

section Nuevo

variable {nombre : List UInt8} {padre : ℤ} {estado : UInt8}

theorem soloNodo_nodoNuevo (hnombre : nombre.length ≤ 70) (s : Estado) :
    SoloNodo m i s (nodoNuevo m i estado nombre padre s) := by
  intro x hx
  rw [nodoNuevo, ponerPadre_mem _ _ _ (by rw [dirPadre]; omega),
    ponerTamanio_mem _ _ _ (by rw [dirTamanio]; omega),
    ponerNombre_mem _ _ _ (by rw [dirNombre]; omega),
    ponerEstado_mem _ _ _ (by rw [dirEstado]; omega)]

theorem soloNodo_conFechas (ahora : ℕ) (s : Estado) : SoloNodo m i s (conFechas m i ahora s) := by
  intro x hx
  rw [conFechas, ponerCreacion_mem _ _ _ (by rw [dirCreacion]; omega),
    ponerModificacion_mem _ _ _ (by rw [dirModificacion]; omega),
    ponerIndirecto_mem _ _ _ (by rw [dirIndirecto]; omega)]

/-- Slot `k` has a new file, with data block `d` and pointer block `e`, and what has no byte in the
slot or in these blocks is kept. -/
structure Estreno (m : Montaje) (k : ℤ) (d e : ℤ) (s s' : Estado) : Prop where
  bits : ∀ x, EnBitmap m x →
    s'.testBit m x = (s.testBit m x || decide (d = x) || decide (e = x))
  estado : s'.estado m k = ocupado
  tamanio : s'.tamanio m k = 0
  indirecto : s'.indirecto m k 0 = e
  dato : s'.dato m k 0 = d
  fichas : ∀ j, 0 ≤ j → j < 1024 → j ≠ k → MismaFicha m j s s'
  zona : ∀ j n, j ≠ k → MapaCompleto m s j n → (∀ b ∈ Bloques m s j n, b ≠ d ∧ b ≠ e) →
    MismaZona m j n s s'

theorem estado_conFechas (ahora : ℕ) (s : Estado) :
    (conFechas m i ahora s).estado m i = s.estado m i := by
  rw [Estado.estado, conFechas, ponerCreacion_mem _ _ _ (by rw [dirEstado, dirCreacion]; omega),
    ponerModificacion_mem _ _ _ (by rw [dirEstado, dirModificacion]; omega),
    ponerIndirecto_mem _ _ _ (by rw [dirEstado, dirIndirecto]; omega)]
  rfl

/-- The pointers of a new file, and the clearing of its data block. -/
theorem estreno_of_agregado {d e : ℤ} {t u : Estado} (hi : 0 ≤ i) (hi' : i < 1024)
    (hsolo : SoloNodo m i s t) (hestado : t.estado m i = ocupado) (htamanio : t.tamanio m i = 0)
    (hd : m.base ≤ d) (hne : e ≠ d) (hlimpio : Limpio m s e) (h : Agregado m i 0 d e t u)
    (hbloque : SoloBloque m d u s') : Estreno m i d e s s' := by
  have hnodo := nodo_eq m i
  have h1024 := nodo_eq m 1024
  have hindirecto : s'.indirecto m i 0 = e := by
    rw [← h.indirecto]
    exact load32_congr fun x hx => hbloque.antes hd (by rw [dirIndirecto]; omega)
  have hbits : ∀ x, EnBitmap m x → t.testBit m x = s.testBit m x := fun x => hsolo.testBit hi
  refine ⟨fun x hx => ?_, ?_, ?_, hindirecto, ?_, fun j hj hj' hji => ?_,
    fun j n hji hmapa hno => ?_⟩
  · rw [hbloque.testBit hd hx, h.bits x hx, hbits x hx]
    rfl
  · rw [← hestado, ← (h.ficha hi hi').estado]
    exact hbloque.antes hd (by rw [dirEstado]; omega)
  · rw [hbloque.tamanio hd hi', h.tamanio hi hi', htamanio]
  · rw [Estado.dato, Nat.zero_div, Nat.cast_zero, hindirecto, ← h.puntero]
    exact load32_congr fun x hx => hbloque.otro hne (by omega) (by omega)
  · have hotro := nodo_eq m j
    exact (hsolo.ficha hji).trans ((h.ficha hj hj').trans fun x hx hx' =>
      hbloque.antes hd (by omega))
  · have hz := hsolo.zona hi' hji hmapa.toMapa
    have hbloques := hz.bloques_eq hmapa.toMapa
    have hmapa' : MapaCompleto m t j n :=
      hz.mapaCompleto hmapa fun b _ hb husado => by rw [hbits b hb, husado]
    have hlimpio' : Limpio m t e := fun b hb hbitmap husado =>
      hlimpio b hb hbitmap (hbits b hbitmap ▸ husado)
    have hz' : MismaZona m j n t u := h.zona (fun _ => hlimpio') hji hmapa'
      fun b hb => (hno b (hbloques ▸ hb)).2
    refine hz.trans hmapa.toMapa (hz'.trans hmapa'.toMapa (hbloque.zona hd hmapa.nodo_lt ?_))
    rw [hz'.bloques_eq hmapa'.toMapa, hbloques]
    exact fun hmem => (hno d hmem).1 rfl

theorem Estreno.cambio {d e : ℤ} (h : Estreno m i d e s s') (hm : Formateado m)
    (hs : Repartido m s) (hi : 0 ≤ i) (hi' : i < 1024) (hborrado : s.estado m i = borrado)
    (hne : d ≠ e) (hd : m.base ≤ d ∧ EnBitmap m d ∧ s.testBit m d = false)
    (he : m.base ≤ e ∧ EnBitmap m e ∧ s.testBit m e = false) : CambioJusto m i s s' := by
  have harchivo : EsArchivo m s' i := ⟨hi, hi', h.estado⟩
  -- the blocks of the other files are in use, and these two were not
  have hotro : ∀ j, ∀ b ∈ s.propios m j, b ≠ d ∧ b ≠ e := by
    intro j b hb
    have husado := (hs.usado hb).2
    constructor
    · rintro rfl
      exact absurd husado (by rw [hd.2.2]; decide)
    · rintro rfl
      exact absurd husado (by rw [he.2.2]; decide)
  refine ⟨⟨h.fichas, fun j hne hj => ?_, fun _ => ?_, fun j _ b hb hb' => ?_, fun j _ b hb => ?_⟩,
    fun b hb => ?_⟩
  · exact h.zona j _ hne (hs.mapas j hj) fun b hb => hotro j b ⟨hj, hb⟩
  · rw [h.tamanio]
    refine mapaCompleto_uno hi hi' h.indirecto h.dato hne ⟨hd.1, hd.2.1, ?_⟩ ⟨he.1, he.2.1, ?_⟩
    · rw [h.bits d hd.2.1, decide_eq_true rfl, Bool.or_true, Bool.true_or]
    · rw [h.bits e he.2.1, decide_eq_true rfl, Bool.or_true]
  · obtain ⟨-, p, hp, heq⟩ := hb
    rw [h.tamanio] at hp
    obtain rfl : p = 0 := Nat.lt_one_iff.1 hp
    rw [h.dato, Nat.zero_div, Nat.cast_zero, h.indirecto] at heq
    obtain ⟨hnod, hnoe⟩ := hotro j b hb'
    exact heq.elim (fun heq => hnod heq.symm) fun heq => hnoe heq.symm
  · rw [h.bits b (hs.usado hb).1, (hs.usado hb).2, Bool.true_or, Bool.true_or]
  · have hmarcado := hb.2.2
    rw [h.bits b (mem_marcados_enBitmap hm hb), Bool.or_eq_true, Bool.or_eq_true,
      decide_eq_true_iff, decide_eq_true_iff] at hmarcado
    have huno : 0 < bloquesDe (s'.tamanio m i) := lt_of_lt_of_le one_pos (le_max_left _ _)
    rcases hmarcado with (hviejo | rfl) | rfl
    · refine .inr ⟨⟨hb.1, hb.2.1, hviejo⟩, fun hpropio => ?_⟩
      have hocupado := hpropio.1.2.2
      rw [hborrado] at hocupado
      cases hocupado
    · exact .inl ⟨harchivo, 0, huno, .inl h.dato⟩
    · exact .inl ⟨harchivo, 0, huno, .inr h.indirecto⟩

/-- The first two free blocks are for the data and the pointers of a new file. -/
theorem cambio_crearArchivo (hm : Formateado m) (hs : Repartido m s) {k d e : ℕ} {l : List ℕ}
    (hk : nodoLibre m s = some k) (hlibres : libres m s = d :: e :: l) (hlimpio : Limpio m s e)
    (hnombre : nombre.length ≤ 70) {ahora : ℕ} {r : ℤ × Estado}
    (hcrear : crearArchivo m ahora nombre padre s = some r) :
    CambioJusto m k s r.2 ∧ SoloMemoria s r.2 ∧ r.2.tamanio m k = 0 ∧
      MismaFicha m k (nodoNuevo m k ocupado nombre padre s) r.2 ∧ r.1 = 0 := by
  obtain ⟨hk', hborrado⟩ := nodoLibre_eq_some hk
  rw [cantidadNodos] at hk'
  have hk0 := Int.natCast_nonneg k
  have hk1024 : (k : ℤ) < 1024 := by omega
  set t := conFechas m k ahora (nodoNuevo m k ocupado nombre padre s) with ht
  have hsolo : SoloNodo m k s t := fun x hx =>
    (soloNodo_conFechas ahora _ x hx).trans (soloNodo_nodoNuevo hnombre s x hx)
  have hlibres' : libres m t = d :: e :: l := by
    rw [libres_congr hm fun x => hsolo.testBit hk0, hlibres]
  have htamanio : t.tamanio m k = 4096 * (0 : ℕ) := (tamanio_conFechas _).trans tamanio_nodoNuevo
  have hestado : t.estado m k = ocupado := (estado_conFechas ahora _).trans estado_nodoNuevo
  obtain ⟨u, hagrega, hagregado, -⟩ :=
    agregado_primero hm hk0 hk1024 (by decide) rfl htamanio hlibres'
  have hobtiene := obtenerBloqueLibre_eq (primerLibre_of_libres hlibres')
  have hpares := libres_pairwise m s
  rw [hlibres, List.pairwise_cons] at hpares
  have hde : d < e := hpares.1 e List.mem_cons_self
  obtain ⟨hd, hdlt, hdlibre⟩ := mem_libres.1 (hlibres ▸ List.mem_cons_self)
  obtain ⟨he, helt, helibre⟩ :=
    mem_libres.1 (hlibres ▸ List.mem_cons_of_mem d List.mem_cons_self)
  obtain rfl : r = (0, u.conMem (fill u.mem (m.bloque d) 4096 0)) := by
    rw [crearArchivo, hk] at hcrear
    refine Option.some.inj (hcrear.symm.trans ?_)
    change ((obtenerBloqueLibre m t).bind fun r => (agregarBloqueLibre m k r.1 r.2).bind fun q =>
      some (0, q.2.conMem (fill q.2.mem (m.bloque r.1) 4096 0))) = _
    rw [hobtiene, Option.bind_some, hagrega, Option.bind_some]
  have hbloque : SoloBloque m d u (u.conMem (fill u.mem (m.bloque d) 4096 0)) := fun x hx =>
    conMem_fill_mem u (by omega)
  have hestreno := estreno_of_agregado hk0 hk1024 hsolo hestado htamanio hd (by omega) hlimpio
    hagregado hbloque
  refine ⟨hestreno.cambio hm hs hk0 hk1024 hborrado (by omega)
    ⟨hd, enBitmap_of_libre hm (hlibres ▸ List.mem_cons_self), hdlibre⟩
    ⟨he, enBitmap_of_libre hm (hlibres ▸ List.mem_cons_of_mem d List.mem_cons_self), helibre⟩, ?_,
    hestreno.tamanio, ?_, rfl⟩
  · have hcampos : SoloMemoria s (t.setBit m d) := by
      rw [ht]
      exact ⟨_, rfl⟩
    exact (hcampos.trans (soloMemoria_agregarBloqueLibre hagrega)).trans ⟨_, rfl⟩
  · have hfechas : MismaFicha m k (nodoNuevo m k ocupado nombre padre s) t := by
      intro x _ hx
      rw [ht, conFechas, ponerCreacion_mem _ _ _ (by rw [dirCreacion]; omega),
        ponerModificacion_mem _ _ _ (by rw [dirModificacion]; omega),
        ponerIndirecto_mem _ _ _ (by rw [dirIndirecto]; omega)]
    have hnodo := nodo_eq m k
    have h1024 := nodo_eq m 1024
    have hdatos := enTabla_lt_bloque hd
    exact (hfechas.trans (hagregado.ficha hk0 hk1024)).trans fun x hx hx' =>
      hbloque.antes hd (by omega)

end Nuevo

end Sac
