import Mathlib.Logic.Function.Iterate
import Linuse.Muse.Frames

/-!
# The clock

The algorithm that `clockModificado` is for goes round the frames from the pointer: a
first round looks for a frame that is neither used nor modified, a second one for a frame
that is modified but not used and clears the use bit of those that it passes, and both are
repeated until one finds a frame. The code makes these two rounds twice, the last one
without clearing; it always finds the frame of the algorithm.
-/

namespace Muse

/-! ## The algorithm -/

/-- The frame that a round from `puntero` visits after `d` others. -/
def visitado (n puntero d : ℕ) : ℕ := (puntero + d) % n

/-- The first `d` frames of a round. -/
def visitados (n puntero d : ℕ) : List ℕ := (List.range d).map (visitado n puntero)

/-- The frames, without the use bits of some of them. -/
def apagar (pasados : List ℕ) (frames : List Frame) : List Frame :=
  frames.mapIdx fun i f => if i ∈ pasados then { f with uso := false } else f

/-- Some frame of the list at this position meets the condition. -/
def Cumple (cumple : Frame → Bool) (frames : List Frame) (i : ℕ) : Prop :=
  frames[i]?.any cumple = true

/-- A round finds its first frame with the condition after `d` others. -/
structure Encuentra (n puntero : ℕ) (cumple : Frame → Bool) (frames : List Frame) (d : ℕ) :
    Prop where
  enVuelta : d < n
  elegido : Cumple cumple frames (visitado n puntero d)
  primero : ∀ e < d, ¬ Cumple cumple frames (visitado n puntero e)

/-- A round finds no frame with the condition. -/
def NoEncuentra (n puntero : ℕ) (cumple : Frame → Bool) (frames : List Frame) : Prop :=
  ∀ d < n, ¬ Cumple cumple frames (visitado n puntero d)

/-- The steps of the algorithm: the frame that it chooses and those that its second step
passed. -/
inductive Elige (n puntero : ℕ) : List Frame → ℕ → List ℕ → Prop
  | paso1 {frames : List Frame} {d : ℕ} : Encuentra n puntero sinUsoNiCambios frames d →
      Elige n puntero frames (visitado n puntero d) []
  | paso2 {frames : List Frame} {d : ℕ} : NoEncuentra n puntero sinUsoNiCambios frames →
      Encuentra n puntero sinUsoConCambios frames d →
      Elige n puntero frames (visitado n puntero d) (visitados n puntero d)
  | paso3 {frames : List Frame} {elegido : ℕ} {pasados : List ℕ} :
      NoEncuentra n puntero sinUsoNiCambios frames → NoEncuentra n puntero sinUsoConCambios frames →
      Elige n puntero (apagar (visitados n puntero n) frames) elegido pasados →
      Elige n puntero frames elegido (visitados n puntero n ++ pasados)

/-! ## A round -/

section Rondas

variable {cfg : Configuracion} {cumple : Frame → Bool} {frames : List Frame} {p : ℕ}

theorem siguiente_visitado (hn : 0 < cfg.cantidadFrames) (p d : ℕ) :
    siguiente cfg (visitado cfg.cantidadFrames p d) = visitado cfg.cantidadFrames p (d + 1) := by
  have hlt := Nat.mod_lt (p + d) hn
  rw [siguiente, visitado, visitado, ← Nat.add_assoc, Nat.add_mod (p + d) 1]
  split_ifs with h
  · rw [Nat.mod_eq_of_lt (a := 1) (by omega), Nat.mod_eq_of_lt h]
  · rcases Nat.eq_or_lt_of_le hn with hone | hlt'
    · rw [← hone, Nat.mod_one]
    · have heq : (p + d) % cfg.cantidadFrames + 1 = cfg.cantidadFrames := by omega
      rw [Nat.mod_eq_of_lt (a := 1) hlt', heq, Nat.mod_self]

theorem visitado_cero (hp : p < cfg.cantidadFrames) : visitado cfg.cantidadFrames p 0 = p :=
  Nat.mod_eq_of_lt hp

/-- What a round that changes nothing finds from its frame number `d` on. -/
theorem ronda_cases (cumple : Frame → Bool) (frames : List Frame) (p : ℕ)
    (hn : 0 < cfg.cantidadFrames) (k d : ℕ) :
    (∃ e < k, ronda cfg cumple frames k (visitado cfg.cantidadFrames p d) =
        some (visitado cfg.cantidadFrames p (d + e)) ∧
      Cumple cumple frames (visitado cfg.cantidadFrames p (d + e)) ∧
      ∀ e' < e, ¬ Cumple cumple frames (visitado cfg.cantidadFrames p (d + e'))) ∨
    (ronda cfg cumple frames k (visitado cfg.cantidadFrames p d) = none ∧
      ∀ e < k, ¬ Cumple cumple frames (visitado cfg.cantidadFrames p (d + e))) := by
  induction k generalizing d with
  | zero => exact Or.inr ⟨rfl, fun e he => absurd he (Nat.not_lt_zero e)⟩
  | succ k ih =>
      rw [ronda]
      by_cases hd : frames[visitado cfg.cantidadFrames p d]?.any cumple = true
      · rw [if_pos hd]
        exact Or.inl ⟨0, Nat.succ_pos k, rfl, hd, fun e he => absurd he (Nat.not_lt_zero e)⟩
      · rw [if_neg hd, siguiente_visitado hn]
        have hcero : ∀ e, ¬ Cumple cumple frames (visitado cfg.cantidadFrames p (d + 1 + e)) →
            ¬ Cumple cumple frames (visitado cfg.cantidadFrames p (d + (e + 1))) := by
          intro e
          rw [show d + (e + 1) = d + 1 + e by omega]
          exact id
        rcases ih (d + 1) with ⟨e, he, heq, hcumple, hantes⟩ | ⟨heq, hantes⟩
        · refine Or.inl ⟨e + 1, by omega, ?_, ?_, ?_⟩
          · rw [heq, show d + (e + 1) = d + 1 + e by omega]
          · rwa [show d + (e + 1) = d + 1 + e by omega]
          · intro e' he'
            cases e' with
            | zero => exact hd
            | succ e' => exact hcero e' (hantes e' (by omega))
        · refine Or.inr ⟨heq, fun e' he' => ?_⟩
          cases e' with
          | zero => exact hd
          | succ e' => exact hcero e' (hantes e' (by omega))

/-- A round of all the frames, from the pointer. -/
theorem ronda_vuelta (cumple : Frame → Bool) (frames : List Frame) (hp : p < cfg.cantidadFrames) :
    (∃ d, Encuentra cfg.cantidadFrames p cumple frames d ∧
      ronda cfg cumple frames cfg.cantidadFrames p = some (visitado cfg.cantidadFrames p d)) ∨
    (NoEncuentra cfg.cantidadFrames p cumple frames ∧
      ronda cfg cumple frames cfg.cantidadFrames p = none) := by
  have h := ronda_cases cumple frames p (Nat.zero_lt_of_lt hp) cfg.cantidadFrames 0
  simp only [Nat.zero_add, visitado_cero hp] at h
  rcases h with ⟨d, hd, heq, hcumple, hantes⟩ | ⟨heq, hantes⟩
  · exact Or.inl ⟨d, ⟨hd, hcumple, hantes⟩, heq⟩
  · exact Or.inr ⟨hantes, heq⟩

/-! ## The round that clears -/

@[simp]
theorem getElem?_apagar (pasados : List ℕ) (frames : List Frame) (i : ℕ) :
    (apagar pasados frames)[i]? =
      frames[i]?.map fun f => if i ∈ pasados then { f with uso := false } else f := by
  rw [apagar, List.getElem?_mapIdx]

theorem apagar_nil (frames : List Frame) : apagar [] frames = frames := by
  apply List.ext_getElem?
  intro i
  rw [getElem?_apagar]
  cases frames[i]? <;> simp

/-- Clearing a frame and then others. -/
theorem apagar_modify (pasados : List ℕ) (frames : List Frame) (i : ℕ) :
    apagar pasados (frames.modify i fun f => { f with uso := false }) =
      apagar (i :: pasados) frames := by
  apply List.ext_getElem?
  intro j
  rw [getElem?_apagar, getElem?_apagar, List.getElem?_modify]
  cases frames[j]? with
  | none => rfl
  | some f =>
      by_cases hij : i = j
      · subst hij
        simp
      · simp [hij, Ne.symm hij]

/-- The frames of a round are different. -/
theorem visitado_ne (n p d e e' : ℕ) (h : e < e') (h' : e' < e + n) :
    visitado n p (d + e) ≠ visitado n p (d + e') := by
  intro heq
  have hmod : (p + (d + e') - (p + (d + e))) % n = 0 :=
    Nat.sub_mod_eq_zero_of_mod_eq heq.symm
  have hle := Nat.le_of_dvd (by omega) (Nat.dvd_of_mod_eq_zero hmod)
  omega

theorem visitados_succ (n d e : ℕ) :
    ((List.range (e + 1)).map fun e' => visitado n p (d + e')) =
      visitado n p d :: (List.range e).map fun e' => visitado n p (d + 1 + e') := by
  rw [List.range_succ_eq_map, List.map_cons, List.map_map, Nat.add_zero]
  congr 1
  apply List.map_congr_left
  intro e' _
  rw [Function.comp_apply, show d + e'.succ = d + 1 + e' by omega]

theorem cumple_modify_of_ne {i j : ℕ} (h : i ≠ j) :
    Cumple cumple (frames.modify i fun f => { f with uso := false }) j ↔
      Cumple cumple frames j := by
  rw [Cumple, Cumple, List.getElem?_modify]
  simp [h]

/-- What the round that clears finds and leaves from its frame number `d` on. -/
theorem rondaApagando_cases (cumple : Frame → Bool) (frames : List Frame) (p : ℕ)
    (hn : 0 < cfg.cantidadFrames) (k d : ℕ) (hk : k ≤ cfg.cantidadFrames) :
    (∃ e < k, rondaApagando cfg cumple k (visitado cfg.cantidadFrames p d) frames =
        (some (visitado cfg.cantidadFrames p (d + e)),
          apagar ((List.range e).map fun e' => visitado cfg.cantidadFrames p (d + e')) frames) ∧
      Cumple cumple frames (visitado cfg.cantidadFrames p (d + e)) ∧
      ∀ e' < e, ¬ Cumple cumple frames (visitado cfg.cantidadFrames p (d + e'))) ∨
    (rondaApagando cfg cumple k (visitado cfg.cantidadFrames p d) frames =
        (none, apagar ((List.range k).map fun e' => visitado cfg.cantidadFrames p (d + e'))
          frames) ∧
      ∀ e < k, ¬ Cumple cumple frames (visitado cfg.cantidadFrames p (d + e))) := by
  induction k generalizing d frames with
  | zero =>
      refine Or.inr ⟨?_, fun e he => absurd he (Nat.not_lt_zero e)⟩
      rw [List.range_zero, List.map_nil, apagar_nil]
      rfl
  | succ k ih =>
      rw [rondaApagando]
      by_cases hd : frames[visitado cfg.cantidadFrames p d]?.any cumple = true
      · rw [if_pos hd]
        refine Or.inl ⟨0, Nat.succ_pos k, ?_, hd, fun e he => absurd he (Nat.not_lt_zero e)⟩
        rw [List.range_zero, List.map_nil, apagar_nil, Nat.add_zero]
      · rw [if_neg hd, siguiente_visitado hn]
        -- The frame that was cleared is none of those that the rest of the round visits.
        have hsame : ∀ e < k, Cumple cumple (frames.modify (visitado cfg.cantidadFrames p d)
            fun f => { f with uso := false }) (visitado cfg.cantidadFrames p (d + 1 + e)) ↔
              Cumple cumple frames (visitado cfg.cantidadFrames p (d + (e + 1))) := by
          intro e he
          rw [show d + (e + 1) = d + 1 + e by omega]
          refine cumple_modify_of_ne ?_
          have hne := visitado_ne cfg.cantidadFrames p d 0 (1 + e) (by omega) (by omega)
          rwa [Nat.add_zero, ← Nat.add_assoc] at hne
        have hantes' : ∀ e ≤ k, (∀ e' < e, ¬ Cumple cumple
              (frames.modify (visitado cfg.cantidadFrames p d) fun f => { f with uso := false })
              (visitado cfg.cantidadFrames p (d + 1 + e'))) →
            ∀ e' < e + 1, ¬ Cumple cumple frames (visitado cfg.cantidadFrames p (d + e')) := by
          intro e he hantes e' he'
          cases e' with
          | zero => exact hd
          | succ e' =>
              rw [← hsame e' (by omega)]
              exact hantes e' (by omega)
        rcases ih (frames.modify (visitado cfg.cantidadFrames p d) fun f =>
          { f with uso := false }) (d + 1) (by omega) with
          ⟨e, he, heq, hcumple, hantes⟩ | ⟨heq, hantes⟩
        · refine Or.inl ⟨e + 1, by omega, ?_, (hsame e he).1 hcumple, hantes' e (by omega) hantes⟩
          rw [heq, visitados_succ, apagar_modify, show d + (e + 1) = d + 1 + e by omega]
        · refine Or.inr ⟨?_, hantes' k le_rfl hantes⟩
          rw [heq, visitados_succ, apagar_modify]

/-- A round of all the frames that clears, from the pointer. -/
theorem rondaApagando_vuelta (cumple : Frame → Bool) (frames : List Frame)
    (hp : p < cfg.cantidadFrames) :
    (∃ d, Encuentra cfg.cantidadFrames p cumple frames d ∧
      rondaApagando cfg cumple cfg.cantidadFrames p frames =
        (some (visitado cfg.cantidadFrames p d),
          apagar (visitados cfg.cantidadFrames p d) frames)) ∨
    (NoEncuentra cfg.cantidadFrames p cumple frames ∧
      rondaApagando cfg cumple cfg.cantidadFrames p frames =
        (none, apagar (visitados cfg.cantidadFrames p cfg.cantidadFrames) frames)) := by
  have h := rondaApagando_cases cumple frames p (Nat.zero_lt_of_lt hp) cfg.cantidadFrames 0 le_rfl
  simp only [Nat.zero_add, visitado_cero hp] at h
  rcases h with ⟨d, hd, heq, hcumple, hantes⟩ | ⟨heq, hantes⟩
  · exact Or.inl ⟨d, ⟨hd, hcumple, hantes⟩, heq⟩
  · exact Or.inr ⟨hantes, heq⟩

end Rondas

/-! ## The four rounds -/

variable {cfg : Configuracion} {s : Estado} {frames : List Frame} {p : ℕ}

/-- A round visits every frame. -/
theorem exists_visitado {n i : ℕ} (hi : i < n) (p : ℕ) : ∃ d < n, visitado n p d = i := by
  have hlt := Nat.mod_lt p (show 0 < n by omega)
  by_cases h : p % n ≤ i
  · refine ⟨i - p % n, by omega, ?_⟩
    rw [visitado, Nat.add_mod, Nat.mod_eq_of_lt (a := i - p % n) (by omega),
      Nat.add_sub_cancel' h, Nat.mod_eq_of_lt hi]
  · refine ⟨n - p % n + i, by omega, ?_⟩
    rw [visitado, Nat.add_mod, Nat.mod_eq_of_lt (a := n - p % n + i) (by omega),
      show p % n + (n - p % n + i) = i + n by omega, Nat.add_mod_right, Nat.mod_eq_of_lt hi]

theorem mem_visitados {n i : ℕ} (hi : i < n) (p : ℕ) : i ∈ visitados n p n := by
  obtain ⟨d, hd, rfl⟩ := exists_visitado hi p
  exact List.mem_map_of_mem (List.mem_range.2 hd)

/-- After a whole round that clears, more clearing changes nothing. -/
theorem apagar_visitados_append {n : ℕ} (hlength : frames.length = n) (pasados : List ℕ) :
    apagar (visitados n p n ++ pasados) frames = apagar (visitados n p n) frames := by
  apply List.ext_getElem?
  intro i
  rw [getElem?_apagar, getElem?_apagar]
  by_cases hi : i < n
  · have hmem := mem_visitados hi p
    simp [hmem]
  · rw [List.getElem?_eq_none (by omega)]
    rfl

/-- After a whole round that clears, a frame is not used, modified or not. -/
theorem cumple_of_apagar {n i : ℕ} (hlength : frames.length = n) (hi : i < n) (p : ℕ) :
    Cumple sinUsoNiCambios (apagar (visitados n p n) frames) i ∨
      Cumple sinUsoConCambios (apagar (visitados n p n) frames) i := by
  have hmem := mem_visitados hi p
  have hlt : i < frames.length := by omega
  rw [Cumple, Cumple, getElem?_apagar, List.getElem?_eq_getElem hlt]
  cases hmod : frames[i].modificado with
  | true => exact Or.inr (by simp [hmem, sinUsoConCambios, hmod])
  | false => exact Or.inl (by simp [hmem, sinUsoNiCambios, hmod])

theorem siguiente_visitado_eq (hp : p < cfg.cantidadFrames) (d : ℕ) :
    siguiente cfg (visitado cfg.cantidadFrames p d) =
      (visitado cfg.cantidadFrames p d + 1) % cfg.cantidadFrames := by
  rw [siguiente_visitado (Nat.zero_lt_of_lt hp), visitado, visitado, Nat.mod_add_mod, Nat.add_assoc]

/-- `clockModificado` chooses the frame of the algorithm and clears the use bits of the
frames that its second step passed; the pointer goes to the frame after the chosen one. -/
theorem clockModificado_elige (cfg : Configuracion) (s : Estado)
    (hlength : s.frames.length = cfg.cantidadFrames) (hp : s.punteroClock < cfg.cantidadFrames) :
    ∃ elegido pasados, Elige cfg.cantidadFrames s.punteroClock s.frames elegido pasados ∧
      clockModificado cfg s = (some elegido, { s with
        frames := apagar pasados s.frames
        punteroClock := (elegido + 1) % cfg.cantidadFrames }) := by
  have hn : 0 < cfg.cantidadFrames := Nat.zero_lt_of_lt hp
  rcases ronda_vuelta sinUsoNiCambios s.frames hp with ⟨d, hd, hprimera⟩ | ⟨hfalla, hprimera⟩
  · refine ⟨_, [], .paso1 hd, ?_⟩
    simp [clockModificado, hprimera, siguiente_visitado_eq hp, apagar_nil]
  · rcases rondaApagando_vuelta sinUsoConCambios s.frames hp with
      ⟨d, hd, hsegunda⟩ | ⟨hfalla', hsegunda⟩
    · refine ⟨_, _, .paso2 hfalla hd, ?_⟩
      simp [clockModificado, hprimera, hsegunda, siguiente_visitado_eq hp]
    · -- All the use bits are clear: one of the last two rounds finds a frame.
      have hclear := cumple_of_apagar hlength hp s.punteroClock
      generalize hclaros : apagar (visitados cfg.cantidadFrames s.punteroClock cfg.cantidadFrames)
        s.frames = claros at hclear
      rcases ronda_vuelta sinUsoNiCambios claros hp with ⟨d, hd, htercera⟩ | ⟨hfalla₃, htercera⟩
      · rw [← hclaros] at hd htercera
        refine ⟨_, _, .paso3 hfalla hfalla' (.paso1 hd), ?_⟩
        simp [clockModificado, hprimera, hsegunda, htercera, siguiente_visitado_eq hp]
      · rcases ronda_vuelta sinUsoConCambios claros hp with ⟨d, hd, hcuarta⟩ | ⟨hfalla₄, _⟩
        · rw [← hclaros] at hfalla₃ hd htercera hcuarta
          refine ⟨_, _, .paso3 hfalla hfalla' (.paso2 hfalla₃ hd), ?_⟩
          simp [clockModificado, hprimera, hsegunda, htercera, hcuarta, siguiente_visitado_eq hp,
            apagar_visitados_append hlength]
        · have hcero := hfalla₃ 0 hn
          have hcero' := hfalla₄ 0 hn
          rw [visitado_cero hp] at hcero hcero'
          rcases hclear with h | h
          · exact absurd h hcero
          · exact absurd h hcero'

/-- A memory of three frames. -/
def tresFrames : Configuracion := ⟨192, 64, 64, by decide, 0, fun _ => 0, 0, fun _ => 0⟩

/-- The three frames are used and only the last one is not modified; the pointer is at the
second. -/
def todosEnUso : Estado where
  frames := [⟨true, true, false⟩, ⟨true, true, false⟩, ⟨false, true, false⟩]
  punteroClock := 1
  paginas := []
  segmentos := []
  tablasSegmentos := .empty
  clientSocket := []
  bitmapSwap := []
  memoria := fun _ => 0
  swap := fun _ => 0
  posicionSwap := 0
  archivos := fun _ => none

theorem clockModificado_elige_todosEnUso :
    ∃ elegido pasados, Elige tresFrames.cantidadFrames todosEnUso.punteroClock todosEnUso.frames
        elegido pasados ∧
      clockModificado tresFrames todosEnUso = (some elegido, { todosEnUso with
        frames := apagar pasados todosEnUso.frames
        punteroClock := (elegido + 1) % tresFrames.cantidadFrames }) :=
  clockModificado_elige tresFrames todosEnUso (by decide) (by decide)

example : (clockModificado tresFrames todosEnUso).1 = some 2 := by decide

end Muse
