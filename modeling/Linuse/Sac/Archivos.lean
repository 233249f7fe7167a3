import Linuse.Sac.Historia

/-!
# What a path names and what its file holds

In the file system that a client sees, a path keeps its node while no node on its way is removed or
renamed and none gets a name that is taken, and a file holds what its writes have put one after the
other. So does the server while the requests are careful (`nodo_of_run`, `lee_of_run`).
-/

namespace Sac

open Memory Locks Locks.Code Transition

variable {m : Montaje} {s s' : Estado} {basura : ℕ → UInt8}

/-- The request gives no node another name and removes none. -/
def Peticion.DejaNombres : Peticion → Prop
  | rename _ _ => False
  | unlink _ => False
  | rmdir _ => False
  | _ => True

namespace Tabla

variable {t t' : Tabla} {path : Ruta} {k : ℕ}

/-- The node is on the way of the path. -/
def Camino (t : Tabla) (path : Ruta) (i : ℕ) : Prop :=
  t.Through cantidadNodos (componentes path.cola) i

/-- No node on the way of the path is removed or renamed, and none gets the name of another one. -/
structure RespetaCamino (t t' : Tabla) (path : Ruta) (p : Peticion) : Prop where
  nodos : ∀ i, t.Camino path i → Catalog.SameName t t' i
  nombre : ∀ viejo nuevo, p = .rename viejo nuevo → t.nodo viejo ≠ none →
    t.nodo nuevo = none ∨ t.nodo nuevo = t.nodo viejo

/-! ## Names -/

/-- The last name of a path is looked up in its directory. -/
theorem nodo_eq_find {q : ℕ} (hne : t.nodo path ≠ some 0) (hq : t.madre path = some q) :
    t.nodo path = t.find cantidadNodos q path.nombre := by
  rw [nodo] at hne ⊢
  rw [madre] at hq
  rw [Ruta.nombre]
  rcases List.eq_nil_or_concat (componentes path.cola) with hnil | ⟨cs, c, hcs⟩
  · rw [hnil] at hne
    exact absurd rfl hne
  · rw [hcs, List.concat_eq_append] at hq ⊢
    rw [List.dropLast_concat] at hq
    rw [Catalog.resolve_snoc, hq, Option.bind_some, List.getLastD_concat]

theorem sameName_of_ne {i j : ℕ} {x : Option Nodo} (h : j ≠ i) :
    Catalog.SameName t (Function.update t i x) j := by
  rw [Catalog.SameName, Function.update_of_ne h]

theorem sameName_setData (t : Tabla) (i : ℕ) (d : Option (List UInt8)) (j : ℕ) :
    Catalog.SameName t (t.setData i d) j := by
  rcases eq_or_ne j i with rfl | hne
  · rw [Catalog.SameName, Catalog.setData, Function.update_self, Option.map_map]
    rfl
  · exact sameName_of_ne hne

/-- When the nodes keep their names, so do the paths. -/
theorem nodo_of_sameName (h : ∀ j, Catalog.SameName t t' j) (hnodo : t.nodo path = some k) :
    t'.nodo path = some k :=
  Catalog.resolve_keep hnodo (fun i _ => h i) fun q c j hj =>
    .inl ((h j).isChild_eq q c ▸ hj)

/-- When a node gets a name that no other one has. -/
theorem nodo_of_update {i q : ℕ} {c : List UInt8} {x : Nodo} (hx : x.father = q ∧ x.name = c)
    (hcamino : ∀ j, t.Camino path j → Catalog.SameName t (Function.update t i (some x)) j)
    (hc : t.find cantidadNodos q c = none ∨ t.isChild q c i = true)
    (hnodo : t.nodo path = some k) : nodo (Function.update t i (some x)) path = some k := by
  refine Catalog.resolve_keep hnodo hcamino fun q' c' j hj => ?_
  rcases eq_or_ne j i with rfl | hne
  · obtain ⟨y, hy, rfl, rfl⟩ := Catalog.isChild_iff.1 hj
    rw [Function.update_self] at hy
    cases hy
    rw [hx.1, hx.2]
    exact hc.symm
  · rw [(sameName_of_ne hne).isChild_eq] at hj
    exact .inl hj

theorem nodo_of_erase {D : Set ℕ}
    (hcamino : ∀ j, t.Camino path j → Catalog.SameName t (t.erase D) j)
    (hnodo : t.nodo path = some k) : nodo (t.erase D) path = some k := by
  refine Catalog.resolve_keep hnodo hcamino fun q c j hj => ?_
  obtain ⟨y, hy, hpadre, hnombre⟩ := Catalog.isChild_iff.1 hj
  rw [Catalog.erase] at hy
  split_ifs at hy
  exact .inl (Catalog.isChild_iff.2 ⟨y, hy, hpadre, hnombre⟩)

/-- A node of the table to which a path resolves. -/
theorem exists_of_nodo (h : t.nodo path = some (k + 1)) :
    k < cantidadNodos ∧ ∃ x, t k = some x := by
  rcases Catalog.resolve_eq_some_cases h with ⟨-, hcero⟩ | ⟨i, hi, heq, hx⟩
  · cases hcero
  · obtain rfl := Nat.succ.inj heq
    exact ⟨hi, hx⟩

theorem Camino.exists {i : ℕ} (h : t.Camino path i) : ∃ x, t i = some x := by
  obtain ⟨cs, -, hcs⟩ := h
  rcases Catalog.resolve_eq_some_cases hcs with ⟨-, hcero⟩ | ⟨j, -, heq, hx⟩
  · cases hcero
  · obtain rfl := Nat.succ.inj heq
    exact hx

/-- A creation leaves what is on the way of a path. -/
theorem Crea.camino {otra : Ruta} {datos : Option (List UInt8)} {lleno res : ℤ} {i : ℕ}
    (h : Crea t otra datos lleno res t') (hi : t.Camino path i) : Catalog.SameName t t' i := by
  cases h with
  | existe _ => rfl
  | sinMadre _ _ => rfl
  | lleno _ _ _ => rfl
  | nace _ _ hlibre =>
      refine sameName_of_ne ?_
      rintro rfl
      obtain ⟨x, hx⟩ := hi.exists
      rw [hlibre.1.2] at hx
      cases hx

theorem Crea.nodo_eq {otra : Ruta} {datos : Option (List UInt8)} {lleno res : ℤ}
    (h : Crea t otra datos lleno res t') (hnodo : t.nodo path = some k) :
    t'.nodo path = some k := by
  cases h with
  | existe _ => exact hnodo
  | sinMadre _ _ => exact hnodo
  | lleno _ _ _ => exact hnodo
  | @nace q i hfalta hmadre hlibre =>
      have hnace : Crea t otra datos lleno 0 (t.put i ⟨q, otra.nombre, datos⟩) :=
        .nace hfalta hmadre hlibre
      refine nodo_of_update ⟨rfl, rfl⟩ (fun j => hnace.camino) (.inl ?_) hnodo
      rw [← nodo_eq_find (by rw [hfalta]; exact (Option.some_ne_none 0).symm) hmadre, hfalta]

/-! ## Bytes -/

/-- What the request makes of the bytes of a node. -/
def edita (t : Tabla) (k : ℕ) (bytes : List UInt8) : Peticion → List UInt8
  | .write _ otra offset buf =>
      if t.nodo otra = some (k + 1) then overwrite bytes offset.toNat buf else bytes
  | .truncate otra n => if t.nodo otra = some (k + 1) then bytes.take n.toNat else bytes
  | _ => bytes

/-- A write to the node is answered with all its bytes, and a truncation does not make it larger. -/
def Entera (t : Tabla) (k : ℕ) : Peticion × Producto → Prop
  | (.write _ otra _ buf, .resultado res) => t.nodo otra = some (k + 1) → res = buf.length
  | (.truncate otra n, _) => t.nodo otra = some (k + 1) →
      0 ≤ n ∧ ∀ bytes, t.bytes k = some bytes → n ≤ bytes.length
  | _ => True

theorem bytes_of_ne {i : ℕ} {x : Option Nodo} (h : k ≠ i) :
    bytes (Function.update t i x) k = t.bytes k := by
  rw [bytes, bytes, Function.update_of_ne h]

theorem bytes_setData {e : Nodo} (h : t k = some e) (d : Option (List UInt8)) :
    bytes (t.setData k d) k = d := by
  rw [bytes, Catalog.setData, Function.update_self, h]
  rfl

theorem bytes_erase {D : Set ℕ} (h : k ∉ D) : bytes (t.erase D) k = t.bytes k := by
  rw [bytes, bytes, Catalog.erase, if_neg h]

theorem bytes_move (t : Tabla) (i q : ℕ) (c : List UInt8) (k : ℕ) :
    bytes (t.move i q c) k = t.bytes k := by
  rcases eq_or_ne k i with rfl | hne
  · rw [bytes, bytes, Catalog.move, Function.update_self]
    cases t k with
    | none => rfl
    | some e => rfl
  · exact bytes_of_ne hne

/-- A node that a path names is on its way. -/
theorem camino_of_nodo (h : t.nodo path = some (k + 1)) : t.Camino path k :=
  ⟨_, List.prefix_rfl, h⟩

theorem Crea.bytes_eq {otra : Ruta} {datos : Option (List UInt8)} {lleno res : ℤ}
    {b : List UInt8} (h : Crea t otra datos lleno res t') (hbytes : t.bytes k = some b) :
    t'.bytes k = some b := by
  cases h with
  | existe _ => exact hbytes
  | sinMadre _ _ => exact hbytes
  | lleno _ _ _ => exact hbytes
  | nace _ _ hlibre =>
      refine (bytes_of_ne ?_).trans hbytes
      rintro rfl
      rw [bytes, hlibre.1.2] at hbytes
      cases hbytes

theorem Lee.bytes_eq {size offset res : ℤ} {leido b : List UInt8}
    (h : Lee t path size offset res leido) (hnodo : t.nodo path = some (k + 1))
    (hbytes : t.bytes k = some b) :
    leido = (b.drop offset.toNat).take size.toNat ∧ res = leido.length := by
  cases h with
  | falta hfalta =>
      rw [hnodo] at hfalta
      cases hfalta
  | @lee i e b' hotra hentrada hdatos =>
      obtain rfl : i = k := by simpa [hnodo, eq_comm] using hotra
      rw [bytes, hentrada, Option.bind_some, hdatos, Option.some.injEq] at hbytes
      rw [hbytes]
      exact ⟨rfl, rfl⟩

/-- The node at the end of a path that is respected is not erased. -/
theorem RespetaCamino.notMem {D : Set ℕ} {p : Peticion}
    (h : t.RespetaCamino (t.erase D) path p) (hnodo : t.nodo path = some (k + 1)) : k ∉ D := by
  intro hk
  obtain ⟨-, x, hx⟩ := exists_of_nodo hnodo
  have hmismo := h.nodos k (camino_of_nodo hnodo)
  rw [Catalog.SameName, Catalog.erase, if_pos hk, hx] at hmismo
  cases hmismo

end Tabla

/-! ## A step -/

namespace Vista

variable {v v' : Vista} {t' : Tabla} {e : Peticion × Producto} {path : Ruta} {k : ℕ}

/-- A step respects every path, unless it gives a node another name or removes one. -/
theorem Paso.respeta (h : v.Paso basura e v') (hp : e.1.DejaNombres) (path : Ruta) :
    v.tabla.RespetaCamino v'.tabla path e.1 := by
  refine ⟨fun i hi => ?_, fun viejo nuevo heq => absurd hp (by rw [heq]; exact not_false)⟩
  cases h with
  | create h => exact h.camino hi
  | mkdir h => exact h.camino hi
  | write h =>
      cases h with
      | escribe _ _ _ _ => exact Tabla.sameName_setData _ _ _ i
      | corta _ _ _ _ _ => exact Tabla.sameName_setData _ _ _ i
  | truncate h =>
      cases h with
      | invalido _ => rfl
      | falta _ _ => rfl
      | lleno _ _ _ _ _ => rfl
      | carpeta _ _ _ _ => rfl
      | cambia _ _ _ _ _ _ => exact Tabla.sameName_setData _ _ _ i
  | rename _ => exact hp.elim
  | unlink _ => exact hp.elim
  | rmdir _ => exact hp.elim
  | read _ => rfl
  | readDir _ _ => rfl
  | getAttr _ => rfl

/-- A step keeps the node of a path that it respects. -/
theorem Paso.nodo_eq (h : v.Paso basura e v') (hnodo : v.tabla.nodo path = some k)
    (hrespeta : v.tabla.RespetaCamino v'.tabla path e.1) : v'.tabla.nodo path = some k := by
  cases h with
  | create h => exact h.nodo_eq hnodo
  | mkdir h => exact h.nodo_eq hnodo
  | write h =>
      cases h with
      | escribe _ _ _ _ => exact Tabla.nodo_of_sameName (Tabla.sameName_setData _ _ _) hnodo
      | corta _ _ _ _ _ => exact Tabla.nodo_of_sameName (Tabla.sameName_setData _ _ _) hnodo
  | truncate h =>
      cases h with
      | invalido _ => exact hnodo
      | falta _ _ => exact hnodo
      | lleno _ _ _ _ _ => exact hnodo
      | carpeta _ _ _ _ => exact hnodo
      | cambia _ _ _ _ _ _ => exact Tabla.nodo_of_sameName (Tabla.sameName_setData _ _ _) hnodo
  | @rename viejo nuevo _ _ h =>
      cases h with
      | falta _ => exact hnodo
      | @mueve i q hviejo hmadre =>
          have hdestino := hrespeta.nombre viejo nuevo rfl (by rw [hviejo]; simp)
          have hcamino := hrespeta.nodos
          obtain ⟨-, x, hx⟩ := Tabla.exists_of_nodo hviejo
          rw [Catalog.move, hx, Option.map_some] at hcamino ⊢
          refine Tabla.nodo_of_update ⟨rfl, rfl⟩ hcamino ?_ hnodo
          rcases hdestino with hfalta | hmismo
          · rw [← Tabla.nodo_eq_find (by rw [hfalta]; exact (Option.some_ne_none 0).symm) hmadre]
            exact .inl hfalta
          · rw [hviejo] at hmismo
            rw [Tabla.nodo_eq_find (by rw [hmismo]; simp) hmadre] at hmismo
            obtain ⟨j, -, heq, hhijo, -⟩ := Catalog.find_eq_some_iff.1 hmismo
            obtain rfl := Nat.succ.inj heq
            exact .inr hhijo
  | unlink h =>
      cases h with
      | falta _ => exact hnodo
      | conHijos _ _ _ => exact hnodo
      | quita _ _ => exact Tabla.nodo_of_erase hrespeta.nodos hnodo
  | rmdir h =>
      cases h with
      | falta _ => exact hnodo
      | poda _ => exact Tabla.nodo_of_erase hrespeta.nodos hnodo
  | read _ => exact hnodo
  | readDir _ _ => exact hnodo
  | getAttr _ => exact hnodo

theorem Escribe.bytes_eq {otra : Ruta} {offset res : ℤ} {buf b : List UInt8}
    (h : v.Escribe otra offset buf res t') (hbytes : v.tabla.bytes k = some b)
    (hentera : v.tabla.nodo otra = some (k + 1) → res = buf.length) :
    t'.bytes k =
      some (if v.tabla.nodo otra = some (k + 1) then overwrite b offset.toNat buf else b) := by
  have haparte : ∀ {i : ℕ} {d}, v.tabla.nodo otra = some (i + 1) → k ≠ i →
      Tabla.bytes (v.tabla.setData i d) k =
        some (if v.tabla.nodo otra = some (k + 1) then overwrite b offset.toNat buf else b) := by
    intro i d hotra hne
    rw [if_neg (by rw [hotra]; simpa using hne.symm)]
    exact (Tabla.bytes_of_ne hne).trans hbytes
  cases h with
  | @escribe i e b' hotra hentrada hdatos _ =>
      rcases eq_or_ne k i with rfl | hne
      · rw [Tabla.bytes, hentrada, Option.bind_some, hdatos, Option.some.injEq] at hbytes
        rw [Tabla.bytes_setData hentrada, if_pos hotra, hbytes]
      · exact haparte hotra hne
  | @corta i e b' hotra hentrada hdatos _ _ =>
      rcases eq_or_ne k i with rfl | hne
      · have hres := hentera hotra
        omega
      · exact haparte hotra hne

theorem Trunca.bytes_eq {otra : Ruta} {n res : ℤ} {b : List UInt8}
    (h : v.Trunca otra n res v') (hbytes : v.tabla.bytes k = some b)
    (hentera : v.tabla.nodo otra = some (k + 1) → 0 ≤ n ∧ n ≤ b.length) :
    v'.tabla.bytes k = some (if v.tabla.nodo otra = some (k + 1) then b.take n.toNat else b) := by
  by_cases hmismo : v.tabla.nodo otra = some (k + 1)
  · obtain ⟨hn, hle⟩ := hentera hmismo
    rw [if_pos hmismo]
    cases h with
    | invalido hneg => omega
    | falta _ hfalta =>
        rw [hmismo] at hfalta
        cases hfalta
    | @lleno i e largo _ hotra hentrada hlargo hrechaza =>
        obtain rfl : i = k := by simpa [hmismo, eq_comm] using hotra
        rw [Tabla.bytes, hentrada, Option.bind_some] at hbytes
        have heq := hlargo b hbytes
        have hlt := hrechaza.1
        omega
    | @carpeta i e _ hotra hentrada hdatos =>
        obtain rfl : i = k := by simpa [hmismo, eq_comm] using hotra
        rw [Tabla.bytes, hentrada, Option.bind_some, hdatos] at hbytes
        cases hbytes
    | @cambia i e b' nuevos _ hotra hentrada hdatos _ hconserva =>
        obtain rfl : i = k := by simpa [hmismo, eq_comm] using hotra
        rw [Tabla.bytes, hentrada, Option.bind_some, hdatos, Option.some.injEq] at hbytes
        subst hbytes
        have hlen := hconserva.1
        rw [Tabla.bytes_setData hentrada, ← hconserva.2, List.take_of_length_le (by omega)]
  · rw [if_neg hmismo]
    cases h with
    | invalido _ => exact hbytes
    | falta _ _ => exact hbytes
    | lleno _ _ _ _ _ => exact hbytes
    | carpeta _ _ _ _ => exact hbytes
    | @cambia i _ _ _ _ hotra _ _ _ _ =>
        refine (Tabla.bytes_of_ne ?_).trans hbytes
        rintro rfl
        exact hmismo hotra

theorem Paso.lee {size offset res : ℤ} {leido : List UInt8}
    (h : v.Paso basura (.read path size offset, .leido res leido) v') :
    v.tabla.Lee path size offset res leido := by
  cases h with
  | read h => exact h

/-- A step leaves in the node of a path that it respects what the request makes of its bytes. -/
theorem Paso.bytes_eq {b : List UInt8} (h : v.Paso basura e v')
    (hnodo : v.tabla.nodo path = some (k + 1)) (hbytes : v.tabla.bytes k = some b)
    (hrespeta : v.tabla.RespetaCamino v'.tabla path e.1) (hentera : v.tabla.Entera k e) :
    v'.tabla.bytes k = some (v.tabla.edita k b e.1) := by
  cases h with
  | create h => exact h.bytes_eq hbytes
  | mkdir h => exact h.bytes_eq hbytes
  | write h => exact h.bytes_eq hbytes hentera
  | truncate h =>
      exact h.bytes_eq hbytes fun hotra => ⟨(hentera hotra).1, (hentera hotra).2 b hbytes⟩
  | rename h =>
      cases h with
      | falta _ => exact hbytes
      | mueve _ _ => exact (Tabla.bytes_move _ _ _ _ k).trans hbytes
  | unlink h =>
      cases h with
      | falta _ => exact hbytes
      | conHijos _ _ _ => exact hbytes
      | quita _ _ => exact (Tabla.bytes_erase (hrespeta.notMem hnodo)).trans hbytes
  | rmdir h =>
      cases h with
      | falta _ => exact hbytes
      | poda _ => exact (Tabla.bytes_erase (hrespeta.notMem hnodo)).trans hbytes
  | read _ => exact hbytes
  | readDir _ _ => exact hbytes
  | getAttr _ => exact hbytes

end Vista

/-- The bytes of a node after the requests of a run. -/
def editado (m : Montaje) (k : ℕ) (bytes : List UInt8)
    (tr : List (Step Estado (Peticion × Producto))) : List UInt8 :=
  tr.foldl (fun b x => (x.pre.tabla m).edita k b x.label.1) bytes

theorem editado_snoc (m : Montaje) (k : ℕ) (bytes : List UInt8)
    (tr : List (Step Estado (Peticion × Producto))) (x : Step Estado (Peticion × Producto)) :
    editado m k bytes (tr ++ [x]) = (x.pre.tabla m).edita k (editado m k bytes tr) x.label.1 := by
  rw [editado, editado, List.foldl_append, List.foldl_cons, List.foldl_nil]

/-- A careful request that gives no node another name and removes none respects every path. -/
theorem respeta_of_sirve (hm : Formateado m) (hs : Integro m s) {p : Peticion} {producto : Producto}
    (hguarda : p.Guarda m s) (hsirve : Sirve m basura s (p, producto) s') (hp : p.DejaNombres)
    (path : Ruta) : (s.tabla m).RespetaCamino (s'.tabla m) path p :=
  (paso_of_sirve hm hs hguarda hsirve).2.respeta hp path

/-- Over careful requests that respect it, a path leads to the same node. -/
theorem nodo_of_run (m : Montaje) (hm : Formateado m) (basura : ℕ → UInt8) (s₀ : Estado)
    (hs : Integro m s₀) {tr : List (Step Estado (Peticion × Producto))}
    (hrun : Run (Sirve m basura) s₀ tr s) (h : ∀ x ∈ tr, x.label.1.Guarda m x.pre) (path : Ruta)
    (hrespeta : ∀ x ∈ tr, (x.pre.tabla m).RespetaCamino (x.post.tabla m) path x.label.1)
    (hresuelve : nodoDe m s₀ path.cola ≠ -1) :
    nodoDe m s path.cola = nodoDe m s₀ path.cola := by
  obtain ⟨k, hk⟩ : ∃ k, (s₀.tabla m).nodo path = some k :=
    Option.ne_none_iff_exists'.1 fun hno => hresuelve ((nodo_eq_none hs.fichas).1 hno)
  have hinv := hrun.invariant (fun s => Integro m s ∧ (s.tabla m).nodo path = some k)
    (fun x : Step Estado (Peticion × Producto) =>
      x.label.1.Guarda m x.pre ∧
        (x.pre.tabla m).RespetaCamino (x.post.tabla m) path x.label.1)
    ⟨hs, hk⟩ (fun s e s' hs hcond hsirve => ?_) fun x hx => ⟨h x hx, hrespeta x hx⟩
  · rw [nodoDe_path hinv.1.fichas, nodoDe_path hs.fichas, hinv.2, hk]
  · obtain ⟨hefecto, hpaso⟩ := paso_of_sirve hm hs.1 hcond.1 hsirve
    exact ⟨hs.1.efecto hefecto, hpaso.nodo_eq hs.2 hcond.2⟩

/-- Only node 0 is on the way of `/a`. -/
theorem eq_zero_of_camino {t : Tabla} (h : t.nodo rutaA = some 1) {i : ℕ}
    (hi : t.Camino rutaA i) : i = 0 := by
  obtain ⟨cs, hcs, hresuelve⟩ := hi
  have hcola : componentes rutaA.cola = [[97]] := rfl
  rw [hcola] at hcs
  rcases List.prefix_cons_iff.1 hcs with rfl | ⟨cs', rfl, hcs'⟩
  · cases hresuelve
  · obtain rfl := List.prefix_nil.1 hcs'
    exact Nat.succ.inj (Option.some.inj (hresuelve.symm.trans h))

theorem nodos_tablaCon :
    ((tablaCon [100]).nodo rutaA = some 1 ∧ (tablaCon [100]).nodo rutaE = none) ∧
      (tablaCon [101]).nodo rutaA = some 1 := by
  decide +kernel

/-- `/d` becomes `/e` away from `/a`. -/
theorem respeta_moverD : (discoConD.tabla montajeChico).RespetaCamino
    (discoConE.tabla montajeChico) rutaA moverD := by
  obtain ⟨hA, hE⟩ := nodos_tablaCon.1
  rw [tabla_discoConD, tabla_discoConE]
  refine ⟨fun i hi => ?_, fun viejo nuevo heq _ => .inl ?_⟩
  · rw [eq_zero_of_camino hA hi]
    rfl
  · obtain ⟨-, rfl⟩ := Peticion.rename.inj heq
    exact hE

theorem tabla_discoSinE :
    discoSinE.tabla montajeChico 0 = some ⟨0, [97], some [7, 8]⟩ ∧
      nodoDe montajeChico discoSinE rutaA.cola = 1 ∧ discoSinE.estado montajeChico 0 = ocupado ∧
      (eval ((Peticion.read rutaA 5 0).codigo montajeChico (fun _ => 0) 0) discoSinE).map Prod.fst =
        some (.leido 2 [7, 8]) := by
  decide +kernel

/-- `/e` is removed away from `/a`. -/
theorem respeta_quitarE : (discoConE.tabla montajeChico).RespetaCamino
    (discoSinE.tabla montajeChico) rutaA quitarE := by
  rw [tabla_discoConE]
  refine ⟨fun i hi => ?_, fun viejo nuevo heq => ?_⟩
  · rw [eq_zero_of_camino nodos_tablaCon.2 hi, Catalog.SameName, tabla_discoSinE.1]
    rfl
  · cases heq

theorem respeta_trasCrearA : ∀ x ∈ trasCrearA,
    (x.pre.tabla montajeChico).RespetaCamino (x.post.tabla montajeChico) rutaA x.label.1 := by
  rw [trasCrearA]
  simp only [List.forall_mem_cons, List.not_mem_nil, false_imp_iff, implies_true, and_true]
  exact ⟨respeta_of_sirve formateado_montajeChico integro_discoConA guarda_escribirA
      sirve_escribirA trivial rutaA,
    respeta_of_sirve formateado_montajeChico integro_discoConBytes guarda_acortarA
      sirve_acortarA trivial rutaA,
    respeta_of_sirve formateado_montajeChico integro_discoAcortado guarda_crearD sirve_crearD
      trivial rutaA, respeta_moverD, respeta_quitarE⟩

theorem nodo_of_run_trasCrearA :
    nodoDe montajeChico discoSinE rutaA.cola = nodoDe montajeChico discoConA rutaA.cola := by
  obtain ⟨-, ⟨-, hnodo, -⟩, -⟩ := datos_conArchivo
  exact nodo_of_run montajeChico formateado_montajeChico (fun _ => 0) discoConA integro_discoConA
    run_trasCrearA guarda_trasCrearA rutaA respeta_trasCrearA (by rw [hnodo]; decide)

/-- After careful requests that respect its path, a read of a file gives what the writes and the
truncations of the run have made of its bytes, in their order. -/
theorem lee_of_run (m : Montaje) (hm : Formateado m) (basura : ℕ → UInt8) (s₀ : Estado)
    (hs : Integro m s₀) {tr : List (Step Estado (Peticion × Producto))}
    (hrun : Run (Sirve m basura) s₀ tr s) (h : ∀ x ∈ tr, x.label.1.Guarda m x.pre) (path : Ruta)
    (hrespeta : ∀ x ∈ tr, (x.pre.tabla m).RespetaCamino (x.post.tabla m) path x.label.1) {k : ℕ}
    (hresuelve : nodoDe m s₀ path.cola = (k : ℤ) + 1) (harchivo : EsArchivo m s₀ k)
    (hentera : ∀ x ∈ tr, (x.pre.tabla m).Entera k x.label) {size offset res : ℤ}
    {leido : List UInt8} (hguarda : (Peticion.read path size offset).Guarda m s)
    (hlee : Sirve m basura s (.read path size offset, .leido res leido) s') :
    leido = ((editado m k (s₀.archivo m k) tr).drop offset.toNat).take size.toNat ∧
      res = leido.length := by
  have hpos : 0 < nodoDe m s₀ path.cola := by omega
  obtain ⟨k', hk, heq, hnodo, hvivo⟩ := exists_nodo hs.fichas hpos
  obtain rfl : k = k' := by omega
  have hbytes : (s₀.tabla m).bytes k = some (s₀.archivo m k) := by
    rw [Tabla.bytes, exists_entrada hk hvivo, Option.bind_some, datos_of_archivo harchivo]
  have hinv : Integro m s ∧ (s.tabla m).nodo path = some (k + 1) ∧
      (s.tabla m).bytes k = some (editado m k (s₀.archivo m k) tr) := by
    refine hrun.invariant_trace_of (fun tr s => Integro m s ∧
        (s.tabla m).nodo path = some (k + 1) ∧
        (s.tabla m).bytes k = some (editado m k (s₀.archivo m k) tr))
      (fun _ x => x.label.1.Guarda m x.pre ∧
        (x.pre.tabla m).RespetaCamino (x.post.tabla m) path x.label.1 ∧
        (x.pre.tabla m).Entera k x.label)
      ⟨hs, hnodo, hbytes⟩ (fun tr s e s' _ hs hcond hsirve => ?_) fun tr₁ x tr₂ heq => ?_
    · obtain ⟨hefecto, hpaso⟩ := paso_of_sirve hm hs.1 hcond.1 hsirve
      refine ⟨hs.1.efecto hefecto, hpaso.nodo_eq hs.2.1 hcond.2.1, ?_⟩
      rw [editado_snoc]
      exact hpaso.bytes_eq hs.2.1 hs.2.2 hcond.2.1 hcond.2.2
    · have hx : x ∈ tr := heq ▸ List.mem_append_right tr₁ List.mem_cons_self
      exact ⟨h x hx, hrespeta x hx, hentera x hx⟩
  obtain ⟨-, hpaso⟩ := paso_of_sirve hm hinv.1 hguarda hlee
  exact hpaso.lee.bytes_eq hinv.2.1 hinv.2.2

theorem entera_trasCrearA :
    ∀ x ∈ trasCrearA, (x.pre.tabla montajeChico).Entera 0 x.label := by
  have hbytes : (discoConBytes.tabla montajeChico).bytes 0 = some [7, 8, 9] := by decide +kernel
  rw [trasCrearA]
  simp only [List.forall_mem_cons, List.not_mem_nil, false_imp_iff, implies_true, and_true]
  refine ⟨fun _ => rfl, fun _ => ⟨by decide, fun bytes h => ?_⟩, trivial, trivial, trivial⟩
  rw [hbytes, Option.some.injEq] at h
  rw [← h]
  decide

theorem guarda_leerA : (Peticion.read rutaA 5 0).Guarda montajeChico discoSinE := by
  obtain ⟨-, hnodo, hocupado, -⟩ := tabla_discoSinE
  rw [Peticion.Guarda, hnodo]
  exact .inr ⟨esArchivo_cero hocupado, by decide, by decide, by decide, by decide,
    .inr (.inl (by decide)), by decide +kernel, by decide +kernel⟩

/-- The two bytes that are left of the three written. -/
theorem lee_of_run_trasCrearA :
    [7, 8] = ((editado montajeChico 0 (discoConA.archivo montajeChico 0) trasCrearA).drop
      (0 : ℤ).toNat).take (5 : ℤ).toNat := by
  obtain ⟨-, ⟨hocupado, hnodo, -⟩, -⟩ := datos_conArchivo
  obtain ⟨⟨_, s'⟩, heval, rfl⟩ := Option.map_eq_some_iff.1 tabla_discoSinE.2.2.2
  exact (lee_of_run montajeChico formateado_montajeChico (fun _ => 0) discoConA integro_discoConA
    run_trasCrearA guarda_trasCrearA rutaA respeta_trasCrearA (by rw [hnodo]; decide)
    (esArchivo_cero hocupado) entera_trasCrearA guarda_leerA ⟨0, heval⟩).1

end Sac
