import Linuse.Sac.Subarbol

/-!
# What the operations answer

Each operation that is served alone, as a function of the state: the answer and the state after it.
-/

namespace Sac

open Memory Locks Locks.Code

variable {m : Montaje} {s s' t : Estado} {path : Ruta} {res : ℤ}

theorem eval_oRename {nuevo : Ruta} :
    (oRename m path nuevo).eval s =
      if nodoDe m s path.cola = -1 then some (-1, s)
      else (dividirRuta nuevo.cola).map fun partes =>
        (0, renombrar m (nodoDe m s path.cola) (nodoDe m s partes.1) partes.2 s) := by
  rw [oRename, eval_bind, eval_dameNodoDe, Option.bind_some]
  split_ifs
  · rfl
  · rw [eval_bind, eval_orFail]
    cases dividirRuta nuevo.cola with
    | none => rfl
    | some partes => simp

theorem eval_oTruncate {fuel : ℕ} {n : ℤ} :
    (oTruncate m fuel path n).eval s =
      if n < 0 ∨ nodoDe m s path.cola = -1 then some (-1, s)
      else (cambiarTamanio m fuel (nodoDe m s path.cola - 1) n).eval s := by
  rw [oTruncate]
  by_cases hneg : n < 0
  · rw [if_pos hneg, if_pos (.inl hneg)]
    rfl
  · rw [if_neg hneg, eval_bind, eval_dameNodoDe, Option.bind_some]
    by_cases hfalta : nodoDe m s path.cola = -1
    · rw [if_pos hfalta, if_pos (.inr hfalta)]
      rfl
    · rw [if_neg hfalta, if_neg (not_or.2 ⟨hneg, hfalta⟩)]
      simp

theorem eval_cambiarTamanio {fuel : ℕ} {i n : ℤ} :
    (cambiarTamanio m fuel i n).eval s =
      if s.tamanio m i < n then
        (darleEspacioNuevo m fuel i (n - s.tamanio m i) s).map fun r =>
          if r.1 ≠ 0 then r else (r.1, r.2.ponerTamanio m i n)
      else ((eliminarNodos m fuel i (settearPosicion n).1 (settearPosicion n).2).eval s).map
        fun r => (0, r.2.ponerTamanio m i n) := by
  rw [cambiarTamanio, eval_bind, eval_read, Option.bind_some]
  dsimp only
  split_ifs
  · rw [eval_bind, eval_attempt]
    cases darleEspacioNuevo m fuel i (n - s.tamanio m i) s with
    | none => rfl
    | some r =>
        rw [Option.bind_some, Option.map_some]
        split_ifs <;> rfl
  · rw [eval_bind]
    cases (eliminarNodos m fuel i (settearPosicion n).1 (settearPosicion n).2).eval s with
    | none => rfl
    | some r => rfl

/-- A node without positions has nothing to release. -/
theorem eval_oUnlink {fuel : ℕ} (h : SinPosiciones m s (nodoDe m s path.cola - 1)) :
    (oUnlink m (fuel + 1) path).eval s = some (
      if nodoDe m s path.cola = -1 then (-1, { s with delMode := false })
      else borrarSinHijos m (nodoDe m s path.cola) { s with delMode := false }) := by
  have hmodo : SinPosiciones m { s with delMode := true } (nodoDe m s path.cola - 1) := h
  have hmisma : nodoDe m { s with delMode := false } path.cola = nodoDe m s path.cola :=
    nodoDe_congr (by rfl) _
  rw [oUnlink, eval_bind, eval_dameNodoDe, Option.bind_some, eval_bind, enableDeleteMode,
    eval_modify, Option.bind_some, eval_bind, eval_lock, Option.bind_some, eval_bind,
    eval_eliminarNodos_sinPosiciones hmodo fuel, Option.bind_some, eval_bind, eval_unlock,
    Option.bind_some, eval_bind, disableDeleteMode, eval_modify, Option.bind_some, oRmdir2,
    eval_bind, eval_dameNodoDe, Option.bind_some]
  dsimp only
  rw [hmisma]
  split_ifs
  · rfl
  · simp

theorem eval_oUnlink_cero : (oUnlink m 0 path).eval s = none := by
  rw [oUnlink, eval_bind, eval_dameNodoDe, Option.bind_some, eval_bind, enableDeleteMode,
    eval_modify, Option.bind_some, eval_bind, eval_lock, Option.bind_some, eval_bind]
  rfl

theorem eval_oRmdir {fuel : ℕ} :
    (oRmdir m fuel path).eval s =
      if nodoDe m s path.cola = -1 then some (-1, s)
      else ((eliminarRecursivamente m fuel (nodoDe m s path.cola)).eval s).map fun r =>
        (0, r.2.ponerEstado m (nodoDe m s path.cola - 1) borrado) := by
  rw [oRmdir, eval_bind, eval_dameNodoDe, Option.bind_some]
  split_ifs
  · rfl
  · rw [eval_bind]
    cases (eliminarRecursivamente m fuel (nodoDe m s path.cola)).eval s with
    | none => rfl
    | some r => rfl

theorem eval_enviar (buffer : Option (List UInt8)) :
    (enviar buffer).eval s = buffer.map fun mensaje => ([mensaje], s) := by
  rw [enviar, eval_bind, eval_orFail]
  cases buffer <;> rfl

theorem eval_oReadDir {basura : ℕ → UInt8} :
    (oReadDir m basura path).eval s =
      (if nodoDe m s path.cola = -1 then (bufferError basura).map ([·]) else some []).bind
        fun error =>
          (bufferReadDir basura (directoriosPegoteados m s (nodoDe m s path.cola))).map
            fun mensaje => (error ++ [mensaje], s) := by
  rw [oReadDir, eval_bind, eval_dameNodoDe, Option.bind_some, eval_bind, avisarError]
  dsimp only
  generalize hbuffer : directoriosPegoteados m s (nodoDe m s path.cola) = texto
  split_ifs with hfalta
  · rw [eval_enviar]
    cases bufferError basura with
    | none => rfl
    | some error =>
        simp only [Option.map_some, Option.bind_some, eval_bind, eval_lock, eval_read, eval_unlock,
          hbuffer, eval_enviar]
        cases bufferReadDir basura texto <;> rfl
  · simp only [Option.bind_some, eval_pure, eval_bind, eval_lock, eval_read, eval_unlock, hbuffer,
      eval_enviar]
    cases bufferReadDir basura texto <;> rfl

theorem eval_oGetAttr {basura : ℕ → UInt8} {ahora : ℕ} :
    (oGetAttr m basura ahora path).eval s =
      (if nodoDe m s path.cola = -1 then bufferError basura
      else if path.cola = [] then bufferRaiz basura
      else bufferAtributos basura (atributos m ahora (nodoDe m s path.cola - 1) s)).map
        fun mensaje => ([mensaje], s) := by
  rw [oGetAttr, eval_bind, eval_dameNodoDe, Option.bind_some]
  split_ifs
  · exact eval_enviar _
  · exact eval_enviar _
  · rw [eval_bind, eval_lock, Option.bind_some, eval_bind, eval_read, Option.bind_some, eval_bind,
      eval_unlock, Option.bind_some]
    exact eval_enviar _

end Sac
