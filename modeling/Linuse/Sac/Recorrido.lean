import Mathlib.Order.Bounds.Basic
import Linuse.Sac.Cerrojos

/-!
# Walking a path

`dameNodoDe` resolves a path from its end. When no node of the table has -1 as its
father, what it returns is where the walk of the components of the path ends that starts
at the root and goes from each node to its first child with the next name.
-/

namespace Sac

open Memory Locks Locks.Code

/-- The components of a path, without a final slash. -/
def componentes (cola : List UInt8) : List (List UInt8) :=
  if cola = [] then [] else (sinBarraFinal cola).splitOn 47

/-- Node `i` of the table is in use, is a child of `actual` and has this name. -/
structure EsHijo (m : Montaje) (s : Estado) (actual : ℤ) (nombre : List UInt8) (i : ℕ) : Prop where
  enTabla : i < cantidadNodos
  enUso : s.estado m i ≠ borrado
  padre : s.padre m i = actual
  nombre : isString s.mem (dirNombre m i) nombre = true

/-- The walk of some components from a node: each step goes to the child with the least
index, and the first one that finds none ends it at -1. -/
inductive Camina (m : Montaje) (s : Estado) : ℤ → List (List UInt8) → ℤ → Prop
  | llega (actual : ℤ) : Camina m s actual [] actual
  | sigue {actual destino : ℤ} {nombre : List UInt8} {resto : List (List UInt8)} {i : ℕ} :
      IsLeast {i | EsHijo m s actual nombre i} i → Camina m s (i + 1) resto destino →
        Camina m s actual (nombre :: resto) destino
  | falta {actual : ℤ} {nombre : List UInt8} (resto : List (List UInt8)) :
      (∀ i, ¬ EsHijo m s actual nombre i) → Camina m s actual (nombre :: resto) (-1)

variable {m : Montaje} {s : Estado}

theorem coincide_iff {padre : ℤ} {nombre : List UInt8} {i : ℕ} (hi : i < cantidadNodos) :
    coincide m s padre nombre i = true ↔ EsHijo m s padre nombre i := by
  simp only [coincide, Bool.and_eq_true, beq_iff_eq, bne_iff_ne]
  constructor
  · rintro ⟨⟨hpadre, hnombre⟩, hestado⟩
    exact ⟨hi, hestado, hpadre, hnombre⟩
  · rintro ⟨-, hestado, hpadre, hnombre⟩
    exact ⟨⟨hpadre, hnombre⟩, hestado⟩

/-- The search among the children gives the first, or -1. -/
theorem buscarNodo_cases (m : Montaje) (s : Estado) (padre : ℤ) (nombre : List UInt8) :
    (∃ i : ℕ, IsLeast {i | EsHijo m s padre nombre i} i ∧
        buscarNodo m s padre nombre = i + 1) ∨
      (∀ i, ¬ EsHijo m s padre nombre i) ∧ buscarNodo m s padre nombre = -1 := by
  cases hfind : (List.range cantidadNodos).find? (coincide m s padre nombre) with
  | none =>
      refine Or.inr ⟨fun i hi => ?_, by rw [buscarNodo, hfind]; rfl⟩
      rw [List.find?_eq_none] at hfind
      exact hfind i (List.mem_range.2 hi.enTabla) ((coincide_iff hi.enTabla).2 hi)
  | some i =>
      rw [List.find?_range_eq_some] at hfind
      obtain ⟨hcoincide, hmem, hprimero⟩ := hfind
      have hi := List.mem_range.1 hmem
      refine Or.inl ⟨i, ⟨(coincide_iff hi).1 hcoincide, fun j hj => ?_⟩, ?_⟩
      · by_contra hlt
        have hfalse := hprimero j (not_le.1 hlt)
        rw [(coincide_iff hj.enTabla).2 hj] at hfalse
        cases hfalse
      · have hfind' : (List.range cantidadNodos).find? (coincide m s padre nombre) = some i :=
          List.find?_range_eq_some.2 ⟨hcoincide, hmem, hprimero⟩
        rw [buscarNodo, hfind']
        rfl

/-! ## One more component -/

/-- The walk of one more component, from where the walk ended. -/
theorem Camina.snoc {actual destino : ℤ} {nombres : List (List UInt8)}
    (h : Camina m s actual nombres destino) (hactual : 0 ≤ actual) (nombre : List UInt8) :
    (destino = -1 ∧ Camina m s actual (nombres ++ [nombre]) (-1)) ∨
      0 ≤ destino ∧ Camina m s actual (nombres ++ [nombre]) (buscarNodo m s destino nombre) := by
  induction h with
  | llega actual =>
      refine Or.inr ⟨hactual, ?_⟩
      rcases buscarNodo_cases m s actual nombre with ⟨i, hi, heq⟩ | ⟨hnone, heq⟩
      · rw [heq]
        exact .sigue hi (.llega _)
      · rw [heq]
        exact .falta [] hnone
  | sigue hi _ ih =>
      rcases ih (by omega) with ⟨hdestino, hcamina⟩ | ⟨hdestino, hcamina⟩
      · exact Or.inl ⟨hdestino, .sigue hi hcamina⟩
      · exact Or.inr ⟨hdestino, .sigue hi hcamina⟩
  | falta resto hnone => exact Or.inl ⟨rfl, .falta _ hnone⟩

/-! ## From the end of the path -/

/-- `dividirRuta` takes the last component off. -/
theorem componentes_eq {cola superPath nombre : List UInt8}
    (h : dividirRuta cola = some (superPath, nombre)) :
    componentes cola = componentes superPath ++ [nombre] := by
  have hne : cola ≠ [] := by
    rintro rfl
    cases h
  rw [dividirRuta_of_ne_nil hne, Option.some.injEq, Prod.mk.injEq] at h
  obtain ⟨hsuper, hnombre⟩ := h
  have hpartes : sinBarraFinal cola = superPath ++ nombre := by
    rw [← hsuper, ← hnombre, List.rdropWhile_append_rtakeWhile]
  have hsinBarra : 47 ∉ nombre := by
    intro hmem
    rw [← hnombre] at hmem
    exact absurd (List.mem_rtakeWhile_imp hmem) (by simp)
  rw [componentes, if_neg hne, hpartes]
  rcases eq_or_ne superPath [] with rfl | hsuperne
  · rw [componentes, if_pos rfl, List.nil_append, List.nil_append,
      List.splitOn_eq_singleton hsinBarra]
  · have hlast : superPath.getLast hsuperne = 47 := by
      subst hsuper
      simpa using List.rdropWhile_last_not _ _ hsuperne
    have hconcat : superPath = superPath.dropLast ++ [47] := by
      rw [← hlast, List.dropLast_append_getLast hsuperne]
    have hbarra : sinBarraFinal superPath = superPath.dropLast := by
      rw [sinBarraFinal, if_pos (by rw [List.getLast?_eq_some_getLast hsuperne, hlast])]
    rw [componentes, if_neg hsuperne, hbarra]
    nth_rewrite 1 [hconcat]
    rw [List.append_assoc, List.singleton_append, List.splitOn_append_cons_self,
      List.splitOn_eq_singleton hsinBarra]

/-- No node in use has -1 as its father. -/
def SinHuerfanos (m : Montaje) (s : Estado) : Prop :=
  ∀ i < cantidadNodos, s.estado m i ≠ borrado → s.padre m i ≠ 4294967295

/-- Resolving a path is walking its components. -/
theorem camina_nodoDe (h : SinHuerfanos m s) (cola : List UInt8) :
    Camina m s 0 (componentes cola) (nodoDe m s cola) := by
  induction hn : cola.length using Nat.strong_induction_on generalizing cola with
  | _ n ih =>
      rcases eq_or_ne cola [] with rfl | hne
      · rw [componentes, if_pos rfl, nodoDe_nil]
        exact .llega 0
      · have hpartes := dividirRuta_of_ne_nil hne
        have hlt := length_super_lt hne
        generalize (sinBarraFinal cola).rdropWhile (· != 47) = superPath at hpartes hlt
        generalize (sinBarraFinal cola).rtakeWhile (· != 47) = nombre at hpartes
        have hsuper := ih _ (hn ▸ hlt) superPath rfl
        rw [componentes_eq hpartes, nodoDe_eq m s hpartes]
        rcases hsuper.snoc le_rfl nombre with ⟨hdestino, hcamina⟩ | ⟨hdestino, hcamina⟩
        · rw [hdestino]
          rcases buscarNodo_cases m s (unsigned (-1)) nombre with ⟨i, hi, _⟩ | ⟨_, heq⟩
          · exact absurd hi.1.padre (h i hi.1.enTabla hi.1.enUso)
          · rw [heq]
            exact hcamina
        · have hmax : nodoDe m s superPath < 4294967296 := by
            rcases nodoDe_cases m s superPath with heq | heq | ⟨i, hi, heq, _⟩
            · omega
            · omega
            · rw [cantidadNodos] at hi
              omega
          rw [unsigned_eq_self hdestino hmax]
          exact hcamina

/-- `dameNodoDe` ends and returns where the walk of the components ends. -/
theorem dameNodoDe_camina (m : Montaje) (s : Estado) (h : SinHuerfanos m s) (path : Ruta) :
    ∃ destino, (dameNodoDe m path.cola).eval s = some (destino, s) ∧
      Camina m s 0 (componentes path.cola) destino :=
  ⟨nodoDe m s path.cola, eval_dameNodoDe m s path.cola, camina_nodoDe h path.cola⟩

/-- Node 0 is the directory `/d`, node 1 the directory `/d/e` and node 2 the file `/d/e/a`. -/
def discoConRamas : Estado :=
  ⟨store (store (store (store (store (fun _ => 0) (dirEstado montajeChico 0) [2, 100])
    (dirEstado montajeChico 1) [2, 101]) (dirPadre montajeChico 1) [1])
    (dirEstado montajeChico 2) [1, 97]) (dirPadre montajeChico 2) [2], 0, false⟩

/-- The path `/d/e/a/`. -/
def rutaDEA : Ruta := ⟨[100, 47, 101, 47, 97, 47], by decide⟩

theorem libre_discoConRamas : LibreDesde montajeChico discoConRamas 3 := by
  have hcero : LibreDesde montajeChico ⟨fun _ => 0, 0, false⟩ 3 := fun _ _ => rfl
  exact ((((hcero.conMem_store (i := 0) (by decide) (by decide)).conMem_store (i := 1)
    (by decide) (by decide)).conMem_store (i := 1) (by decide) (by decide)).conMem_store (i := 2)
      (by decide) (by decide)).conMem_store (i := 2) (by decide) (by decide)

theorem sinHuerfanos_discoConRamas : SinHuerfanos montajeChico discoConRamas := by
  have hpadres : ∀ k < 3, discoConRamas.padre montajeChico (k : ℕ) ≠ 4294967295 := by
    decide +kernel
  exact fun i _ hvivo => hpadres i (libre_discoConRamas.lt_of_ne hvivo)

/-- The slash at the end does not count. -/
theorem dameNodoDe_camina_rutaDEA :
    (dameNodoDe montajeChico rutaDEA.cola).eval discoConRamas = some (3, discoConRamas) ∧
      Camina montajeChico discoConRamas 0 [[100], [101], [97]] 3 := by
  obtain ⟨destino, heval, hcamina⟩ :=
    dameNodoDe_camina montajeChico discoConRamas sinHuerfanos_discoConRamas rutaDEA
  have hnodo : nodoDe montajeChico discoConRamas rutaDEA.cola = 3 := by decide +kernel
  have hpartes : componentes rutaDEA.cola = [[100], [101], [97]] := by decide
  obtain rfl : 3 = destino := by
    rw [eval_dameNodoDe, hnodo, Option.some_inj, Prod.mk.injEq] at heval
    exact heval.1
  rw [hpartes] at hcamina
  exact ⟨heval, hcamina⟩

end Sac
