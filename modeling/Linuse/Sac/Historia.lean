import Linuse.Sac.Simulacion
import Linuse.Transition.Simulation

/-!
# Runs of requests

From an empty formatted disk, while the requests are careful (`Peticion.Guarda`), what the server
answers is what the file system of `Vista.Paso` answers (`tabla_of_run`). No block is at two slots
of files, and those at a slot are marked in the bitmap; as long as no file is removed, only they
are (`bienMarcado_of_run`).
-/

namespace Sac

open Memory Locks Locks.Code Transition

variable {m : Montaje} {s s' : Estado} {basura : ℕ → UInt8}

/-- The request, with its answer, is served to its end. -/
def Sirve (m : Montaje) (basura : ℕ → UInt8) (s : Estado) (e : Peticion × Producto) (s' : Estado) :
    Prop :=
  ∃ fuel, (e.1.codigo m basura fuel).eval s = some (e.2, s')

/-- The request is careful: names fit in their fields, there is room for what is new, and bytes,
blocks and positions are where the code looks for them. -/
def Peticion.Guarda (m : Montaje) (s : Estado) : Peticion → Prop
  | create _ path => NoCrea m s path ∨ path.nombre.length ≤ 70 ∧ LugarNuevo m s
  | mkdir path => NoCrea m s path ∨ path.nombre.length ≤ 70
  | write _ path offset buf => EscrituraSana m s (nodoDe m s path.cola - 1) offset buf
  | truncate path n => n < 0 ∨ nodoDe m s path.cola = -1 ∨ 0 < nodoDe m s path.cola ∧
      TruncadoSano m s (nodoDe m s path.cola - 1) n
  | rename viejo nuevo => nodoDe m s viejo.cola = -1 ∨ 0 < nodoDe m s viejo.cola ∧
      nuevo.nombre.length ≤ 70 ∧ ¬ SinDirectorio m s nuevo
  | unlink path => nodoDe m s path.cola ≠ 0 ∧ SinPosiciones m s (nodoDe m s path.cola - 1)
  | rmdir path => nodoDe m s path.cola = -1 ∨ 0 < nodoDe m s path.cola ∧
      ∀ k ∈ ArchivosDebajo m s (nodoDe m s path.cola), SinPosiciones m s ((k : ℤ) - 1)
  | read path size offset => nodoDe m s path.cola = -1 ∨
      LeeSano m s (nodoDe m s path.cola - 1) size offset
  | readDir _ => NombresEnDisco m
  | getAttr _ _ => True

/-- No file is removed. -/
def DejaArchivos (m : Montaje) (s s' : Estado) : Prop :=
  ∀ d < cantidadNodos, s.estado m d = ocupado → s'.estado m d ≠ borrado

/-! ## One request -/

/-- A careful request touches a node or removes nodes, and is a step of the file system that a
client sees. -/
theorem paso_of_sirve (hm : Formateado m) (hs : Integro m s) {e : Peticion × Producto}
    (h : e.1.Guarda m s) (hsirve : Sirve m basura s e s') :
    Efecto m s s' ∧ (s.vista m).Paso basura e (s'.vista m) := by
  obtain ⟨p, producto⟩ := e
  obtain ⟨fuel, heval⟩ := hsirve
  have hnada := efecto_refl hs.toRepartido
  cases p with
  | create ahora path =>
      obtain ⟨res, t, hcrear, hfin⟩ := eval_bind_some heval
      cases hfin
      obtain ⟨hefecto, hmemoria, hcrea⟩ := crea_of_eval (some []) edquot hs
        (fun hlibre nombre padre => by rw [crearArchivo, hlibre]; rfl)
        (fun hcrea => ⟨(h.resolve_left hcrea).1, fun k q r hk hsin hq hcrear =>
          toca_crearArchivo hm hs.toRepartido hk (h.resolve_left hcrea).2 hsin
            (h.resolve_left hcrea).1 hq hcrear⟩) hcrear
      rw [vista_eq hmemoria.contador]
      exact ⟨hefecto, .create hcrea⟩
  | mkdir path =>
      obtain ⟨res, t, hcrear, hfin⟩ := eval_bind_some heval
      cases hfin
      obtain ⟨hefecto, hmemoria, hcrea⟩ := crea_of_eval none 1 hs
        (fun hlibre nombre padre => by rw [crearDirectorio, hlibre]; rfl)
        (fun hcrea => ⟨h.resolve_left hcrea, fun k q r hk hsin hq hcrear =>
          toca_crearDirectorio hm hs.toRepartido hk hsin (h.resolve_left hcrea) hq hcrear⟩) hcrear
      rw [vista_eq hmemoria.contador]
      exact ⟨hefecto, .mkdir hcrea⟩
  | write ahora path offset buf =>
      obtain ⟨res, t, hescribir, hfin⟩ := eval_bind_some heval
      cases hfin
      obtain ⟨hefecto, hmemoria, hescribe⟩ := escribe_of_eval hm hs h hescribir
      rw [vista_eq hmemoria.contador]
      exact ⟨hefecto, .write hescribe⟩
  | truncate path n =>
      obtain ⟨res, t, htruncar, hfin⟩ := eval_bind_some heval
      cases hfin
      obtain ⟨hefecto, htrunca⟩ := trunca_of_eval hm hs h htruncar
      exact ⟨hefecto, .truncate htrunca⟩
  | rename viejo nuevo =>
      obtain ⟨res, t, hmover, hfin⟩ := eval_bind_some heval
      cases hfin
      obtain ⟨hefecto, hmemoria, hmueve⟩ := mueve_of_eval hm hs h hmover
      rw [vista_eq hmemoria.contador]
      exact ⟨hefecto, .rename hmueve⟩
  | unlink path =>
      obtain ⟨res, t, hborrar, hfin⟩ := eval_bind_some heval
      cases hfin
      obtain ⟨hefecto, hquita⟩ := quita_of_eval hs h.1 h.2 hborrar
      rw [vista_eq (mismoBitmap_oUnlink h.1 h.2 hborrar).bitmapFreeBlocks]
      exact ⟨hefecto, .unlink hquita⟩
  | rmdir path =>
      obtain ⟨res, t, hborrar, hfin⟩ := eval_bind_some heval
      cases hfin
      obtain ⟨hefecto, hpoda⟩ := poda_of_eval hs h hborrar
      rw [vista_eq (mismoBitmap_oRmdir hs.modo h hborrar).bitmapFreeBlocks]
      exact ⟨hefecto, .rmdir hpoda⟩
  | read path size offset =>
      obtain ⟨⟨res, bytes⟩, t, hleer, hfin⟩ := eval_bind_some heval
      cases hfin
      obtain ⟨rfl, hlee⟩ := lee_of_eval hs h hleer
      exact ⟨hnada, .read hlee⟩
  | readDir path =>
      obtain ⟨enviados, t, hlistar, hfin⟩ := eval_bind_some heval
      cases hfin
      obtain ⟨rfl, hlista⟩ := lista_of_eval hs.fichas h hlistar
      exact ⟨hnada, hlista⟩
  | getAttr ahora path =>
      obtain ⟨enviados, t, hatributos, hfin⟩ := eval_bind_some heval
      cases hfin
      obtain ⟨rfl, hdescribe⟩ := describe_of_eval hs.fichas hatributos
      exact ⟨hnada, .getAttr hdescribe⟩

/-! ## From an empty disk -/

/-- An empty formatted disk: no node is in use, and no block of the data area is marked. -/
structure Vacio (m : Montaje) (s : Estado) : Prop where
  modo : s.delMode = false
  nodos : ∀ i < cantidadNodos, s.estado m i = borrado
  libre : ∀ b, m.base ≤ b → b < m.bloques → s.testBit m b = false

namespace Vacio

theorem not_archivo (h : Vacio m s) (i : ℤ) : ¬ EsArchivo m s i := by
  rintro ⟨hi, hi', hocupado⟩
  have hborrado := h.nodos i.toNat (by rw [cantidadNodos]; omega)
  rw [Int.toNat_of_nonneg hi, hocupado] at hborrado
  cases hborrado

theorem propios (h : Vacio m s) (i : ℤ) : s.propios m i = ∅ := by
  ext b
  exact iff_of_false (fun hb => h.not_archivo i hb.1) (Set.notMem_empty b)

theorem integro (h : Vacio m s) : Integro m s where
  mapas i hi := absurd hi (h.not_archivo i)
  ajenos := .of_empty h.propios
  modo := h.modo
  fichas i hi hi' hvivo := by
    have hborrado := h.nodos i.toNat (by rw [cantidadNodos]; omega)
    rw [Int.toNat_of_nonneg hi] at hborrado
    exact absurd hborrado hvivo

theorem coherente (h : Vacio m s) : Coherente m s where
  toRepartido := h.integro.toRepartido
  cubiertos := .of_empty <| by
    ext b
    refine iff_of_false (fun hb => ?_) (Set.notMem_empty b)
    have hlibre := h.libre b hb.1 hb.2.1
    rw [hb.2.2] at hlibre
    cases hlibre

theorem tabla (h : Vacio m s) : s.tabla m = fun _ => none := by
  funext k
  exact tabla_eq_none.2 fun hk => hk.2 (h.nodos k hk.1)

/-- The disk is as empty when the server has counted its blocks. -/
theorem inicio (h : Vacio m s) : Vacio m (obtenerBloquesLibres m s).2 where
  modo := h.modo
  nodos := h.nodos
  libre := h.libre

end Vacio

theorem testBit_inicio (m : Montaje) (s : Estado) (b : ℤ) :
    (obtenerBloquesLibres m s).2.testBit m b = s.testBit m b := rfl

theorem libres_inicio (m : Montaje) (s : Estado) :
    libres m (obtenerBloquesLibres m s).2 = libres m s := rfl

/-! ## Runs -/

section Corridas

variable {s₀ : Estado} {tr : List (Step Estado (Peticion × Producto))}

/-- Careful requests keep the disk sound, and are steps of the file system that a client sees. -/
theorem integro_of_run (hm : Formateado m) (hs : Integro m s₀) (hrun : Run (Sirve m basura) s₀ tr s)
    (h : ∀ x ∈ tr, x.label.1.Guarda m x.pre) :
    Integro m s ∧ Run (Vista.Paso basura) (s₀.vista m) (tr.map (Step.map (Estado.vista m)))
      (s.vista m) :=
  hrun.simulate (Estado.vista m) (Integro m)
    (fun x : Step Estado (Peticion × Producto) => x.label.1.Guarda m x.pre) hs
    (fun s e s' hs hguarda hsirve => by
      obtain ⟨hefecto, hpaso⟩ := paso_of_sirve hm hs hguarda hsirve
      exact ⟨hs.efecto hefecto, hpaso⟩) h

end Corridas

/-- A careful request leaves the disk sound. -/
theorem Sirve.integro {e : Peticion × Producto} (hsirve : Sirve m basura s e s') (hm : Formateado m)
    (hs : Integro m s) (h : e.1.Guarda m s) : Integro m s' :=
  hs.efecto (paso_of_sirve hm hs h hsirve).1

/-- A careful request takes at most one more node of the table. -/
theorem Sirve.desde {e : Peticion × Producto} {n : ℕ} (hsirve : Sirve m basura s e s')
    (hm : Formateado m) (hs : Integro m s) (h : e.1.Guarda m s) (hn : n < cantidadNodos)
    (hlibres : ∀ k, n ≤ k → s.tabla m k = none) : ∀ k, n + 1 ≤ k → s'.tabla m k = none :=
  (paso_of_sirve hm hs h hsirve).2.desde hn hlibres

/-- From an empty formatted disk, what the server answers to careful requests, and what the table of
the disk and its count of free blocks show after them, is what the file system that a client sees
answers and has. -/
theorem tabla_of_run (m : Montaje) (hm : Formateado m) (basura : ℕ → UInt8) (s₀ : Estado)
    (hs : Vacio m s₀) {tr : List (Step Estado (Peticion × Producto))}
    (hrun : Run (Sirve m basura) s₀ tr s) (h : ∀ x ∈ tr, x.label.1.Guarda m x.pre) :
    Run (Vista.Paso basura) ⟨fun _ => none, s₀.bitmapFreeBlocks⟩
      (tr.map (Step.map (Estado.vista m))) (s.vista m) := by
  rw [← hs.tabla]
  exact (integro_of_run hm hs.integro hrun h).2

theorem testBit_discoFormateado {b : ℤ} (hb : 1026 ≤ b) :
    discoFormateado.testBit montajeChico b = false := by
  -- the byte of the last node that is marked has blocks of the data area too
  rcases lt_or_ge b 1032 with hlt | hge
  · have hlibres : ∀ k < 6, discoFormateado.testBit montajeChico (1026 + (k : ℕ)) = false := by
      decide +kernel
    have hbit := hlibres (b - 1026).toNat (by omega)
    rwa [Int.toNat_of_nonneg (by omega), add_sub_cancel] at hbit
  · have hcero : discoFormateado.mem (bitmapStart + b / 8) = 0 := by
      rw [discoFormateado]
      dsimp only
      rw [store_of_disjoint (.inr (by rw [List.length_singleton]; omega)),
        fill_of_disjoint (.inr (by omega))]
    rw [Estado.testBit, hcero]
    exact montajeChico.bits.test_zero _ (by omega)

theorem vacio_discoFormateado : Vacio montajeChico discoFormateado where
  modo := rfl
  nodos i _ := estado_discoFormateado i
  libre _ hb _ := testBit_discoFormateado hb

/-! ### A file is written and cut, a directory is moved and removed -/

/-- The empty disk when its blocks have been counted. -/
def discoMontado : Estado := (obtenerBloquesLibres montajeChico discoFormateado).2

theorem sirve_tras {p : Peticion} {producto : Producto}
    (h : (eval (p.codigo montajeChico (fun _ => 0) 3) s).map Prod.fst = some producto) :
    Sirve montajeChico (fun _ => 0) s (p, producto) (p.tras s) := by
  obtain ⟨⟨_, s'⟩, heval, rfl⟩ := Option.map_eq_some_iff.1 h
  refine ⟨3, ?_⟩
  rw [Peticion.tras, heval]
  rfl

def escribirA : Peticion := .write 0 rutaA 0 [7, 8, 9]
def acortarA : Peticion := .truncate rutaA 2
def crearD : Peticion := .mkdir rutaD
def moverD : Peticion := .rename rutaD rutaE
def quitarE : Peticion := .rmdir rutaE

def discoConA : Estado :=
  (crearArchivo montajeChico 0 [97] 0 discoMontado).elim discoMontado Prod.snd
def discoConBytes : Estado := escribirA.tras discoConA
def discoAcortado : Estado := acortarA.tras discoConBytes
def discoConD : Estado := nodoNuevo montajeChico 1 directorio [100] 0 discoAcortado
def discoConE : Estado := moverD.tras discoConD
def discoSinE : Estado := discoConE.ponerEstado montajeChico 1 borrado

/-- `/a` with two bytes, and a directory at the root. -/
def tablaConA : Tabla := Function.update (fun _ => none) 0 (some ⟨0, [97], some [7, 8]⟩)
def tablaCon (nombre : List UInt8) : Tabla :=
  Function.update tablaConA 1 (some ⟨0, nombre, none⟩)

/-- What the creation, the write and the truncate of `/a` find. -/
theorem datos_conArchivo :
    ((crearArchivo montajeChico 0 [97] 0 discoMontado).map Prod.fst = some 0 ∧
      (libres montajeChico discoFormateado).take 2 = [1026, 1027]) ∧
    (discoConA.estado montajeChico 0 = ocupado ∧ nodoDe montajeChico discoConA rutaA.cola = 1 ∧
      discoConA.tamanio montajeChico 0 = 0 ∧
      (eval (escribirA.codigo montajeChico (fun _ => 0) 3) discoConA).map Prod.fst =
        some (.resultado 3)) ∧
    discoConBytes.estado montajeChico 0 = ocupado ∧
      nodoDe montajeChico discoConBytes rutaA.cola = 1 ∧
      discoConBytes.tamanio montajeChico 0 = 3 ∧
      (eval (acortarA.codigo montajeChico (fun _ => 0) 3) discoConBytes).map Prod.fst =
        some (.resultado 0) := by
  decide +kernel

theorem datos_discoAcortado : nodoLibre montajeChico discoAcortado = some 1 ∧
    numero (tablaConA.nodo rutaD) = -1 ∧
    ∀ k < 3, discoAcortado.tabla montajeChico k = tablaConA k := by
  decide +kernel

/-- What the rename and the removal of `/d` find. -/
theorem datos_conCarpeta :
    (nodoDe montajeChico discoConD rutaD.cola = 2 ∧
      (∀ k < 2, discoConD.tabla montajeChico k = tablaCon [100] k) ∧
      (eval (moverD.codigo montajeChico (fun _ => 0) 3) discoConD).map Prod.fst =
        some (.resultado 0)) ∧
    nodoDe montajeChico discoConE rutaE.cola = 2 ∧
      ∀ k < 3, discoConE.tabla montajeChico k = tablaCon [101] k := by
  decide +kernel

theorem vacio_discoMontado : Vacio montajeChico discoMontado := vacio_discoFormateado.inicio

/-- The first two blocks of the data area are for the first file. -/
theorem guarda_crearA : crearA.Guarda montajeChico discoMontado := by
  refine .inr ⟨by decide, 1026, 1027, (libres montajeChico discoFormateado).drop 2, ?_,
    fun d hd _ husado => ?_⟩
  · have hdos := datos_conArchivo.1.2
    rw [discoMontado, libres_inicio]
    conv_lhs => rw [← List.take_append_drop 2 (libres montajeChico discoFormateado), hdos]
    rfl
  · rw [discoMontado, testBit_inicio, testBit_discoFormateado hd] at husado
    cases husado

theorem sirve_crearA :
    Sirve montajeChico (fun _ => 0) discoMontado (crearA, .resultado 0) discoConA := by
  obtain ⟨hfalta, -⟩ : Creable montajeChico discoMontado rutaA :=
    creable_vacia fun k => (estado_inicio _ _ k).trans (estado_discoFormateado k)
  obtain ⟨⟨_, s'⟩, hcrear, rfl⟩ := Option.map_eq_some_iff.1 datos_conArchivo.1.1
  have hpartes : dividirRuta rutaA.cola = some ([], [97]) := rfl
  refine ⟨0, ?_⟩
  rw [crearA, Peticion.codigo, eval_bind, oCreate,
    eval_oNuevo_of_falta hfalta hpartes (by rw [nodoDe_nil]; decide), nodoDe_nil, discoConA, hcrear,
    Option.bind_some, eval_pure, Option.elim_some]

theorem sirve_escribirA :
    Sirve montajeChico (fun _ => 0) discoConA (escribirA, .resultado 3) discoConBytes := by
  obtain ⟨-, ⟨-, -, -, heval⟩, -⟩ := datos_conArchivo
  exact sirve_tras heval

theorem sirve_acortarA :
    Sirve montajeChico (fun _ => 0) discoConBytes (acortarA, .resultado 0) discoAcortado := by
  obtain ⟨-, -, -, -, -, heval⟩ := datos_conArchivo
  exact sirve_tras heval

theorem sirve_moverD :
    Sirve montajeChico (fun _ => 0) discoConD (moverD, .resultado 0) discoConE :=
  sirve_tras datos_conCarpeta.1.2.2

theorem esArchivo_cero (h : s.estado m 0 = ocupado) : EsArchivo m s 0 := ⟨le_rfl, by decide, h⟩

theorem guarda_escribirA : escribirA.Guarda montajeChico discoConA := by
  obtain ⟨-, ⟨hocupado, hnodo, htamanio, -⟩, -⟩ := datos_conArchivo
  rw [escribirA, Peticion.Guarda, hnodo]
  refine ⟨esArchivo_cero hocupado, le_rfl, htamanio.ge, ?_, .inr ⟨by decide, .inl ⟨?_, ?_⟩⟩⟩
  · rw [faltan, sub_self, htamanio]
    exact (show _ = 0 by decide).trans_le (Nat.zero_le _)
  · exact .inr (.inl ⟨by decide, .inl (by rw [sub_self, htamanio]; decide)⟩)
  · exact limpia_of_bloquesDe (by rw [sub_self, htamanio]; decide)

theorem guarda_acortarA : acortarA.Guarda montajeChico discoConBytes := by
  obtain ⟨-, -, hocupado, hnodo, htamanio, -⟩ := datos_conArchivo
  rw [acortarA, Peticion.Guarda, hnodo]
  refine .inr (.inr ⟨by decide, ⟨fun h => ?_, fun _ _ => ⟨by decide, ?_⟩, fun _ h => ?_⟩⟩)
  · rw [sub_self, htamanio] at h
    exact absurd h (by decide)
  · have hmismos : Set.Ico (bloquesDe 2) (bloquesDe 3) = ∅ := Set.Ico_self 1
    rw [sub_self, CorteSano, htamanio]
    refine .inl ⟨by decide, .inr ⟨by decide, by decide, ?_⟩⟩
    rw [hmismos, Set.image_empty, Set.image_empty]
  · exact absurd (esArchivo_cero hocupado) h

theorem guarda_crearD : crearD.Guarda montajeChico discoAcortado := .inr (by decide)

theorem guarda_moverD : moverD.Guarda montajeChico discoConD := by
  refine .inr ⟨?_, by decide, ?_⟩
  · rw [datos_conCarpeta.1.1]
    decide
  · rintro ⟨partes, hpartes, hfalta⟩
    have hraiz : dividirRuta rutaE.cola = some ([], [101]) := rfl
    obtain rfl := Option.some.inj (hraiz.symm.trans hpartes)
    rw [nodoDe_nil] at hfalta
    exact absurd hfalta (by decide)

theorem integro_discoConA : Integro montajeChico discoConA :=
  sirve_crearA.integro formateado_montajeChico vacio_discoMontado.integro guarda_crearA

theorem integro_discoConBytes : Integro montajeChico discoConBytes :=
  sirve_escribirA.integro formateado_montajeChico integro_discoConA guarda_escribirA

theorem integro_discoAcortado : Integro montajeChico discoAcortado :=
  sirve_acortarA.integro formateado_montajeChico integro_discoConBytes guarda_acortarA

theorem eq_of_desde {t t' : Tabla} {n : ℕ} (h : ∀ k < n, t k = t' k)
    (hresto : ∀ k, n ≤ k → t k = none) (hresto' : ∀ k, n ≤ k → t' k = none) : t = t' := by
  funext k
  rcases lt_or_ge k n with hk | hk
  · exact h k hk
  · rw [hresto k hk, hresto' k hk]

theorem tablaConA_desde {k : ℕ} (hk : 1 ≤ k) : tablaConA k = none :=
  Function.update_of_ne (by omega) _ _

theorem tablaCon_desde {nombre : List UInt8} {k : ℕ} (hk : 2 ≤ k) : tablaCon nombre k = none :=
  (Function.update_of_ne (by omega) _ _).trans (tablaConA_desde (by omega))

theorem desde_discoConA : ∀ k, 1 ≤ k → discoConA.tabla montajeChico k = none :=
  sirve_crearA.desde formateado_montajeChico vacio_discoMontado.integro guarda_crearA (by decide)
    fun k _ => congrFun vacio_discoMontado.tabla k

theorem desde_discoConBytes : ∀ k, 2 ≤ k → discoConBytes.tabla montajeChico k = none :=
  sirve_escribirA.desde formateado_montajeChico integro_discoConA guarda_escribirA (by decide)
    desde_discoConA

theorem tabla_discoAcortado : discoAcortado.tabla montajeChico = tablaConA :=
  eq_of_desde datos_discoAcortado.2.2 (sirve_acortarA.desde formateado_montajeChico
    integro_discoConBytes guarda_acortarA (by decide) desde_discoConBytes)
    fun _ hk => tablaConA_desde (by omega)

theorem sirve_crearD :
    Sirve montajeChico (fun _ => 0) discoAcortado (crearD, .resultado 0) discoConD := by
  have hfalta : nodoDe montajeChico discoAcortado rutaD.cola = -1 := by
    rw [nodoDe_path integro_discoAcortado.fichas, tabla_discoAcortado]
    exact datos_discoAcortado.2.1
  have hpartes : dividirRuta rutaD.cola = some ([], [100]) := rfl
  have heval : (oMkdir montajeChico rutaD).eval discoAcortado = some (0, discoConD) := by
    rw [oMkdir, eval_oNuevo_of_falta hfalta hpartes (by rw [nodoDe_nil]; decide), nodoDe_nil,
      crearDirectorio, datos_discoAcortado.1, Option.elim_some, discoConD, nodoNuevo]
    rfl
  refine ⟨0, ?_⟩
  rw [crearD, Peticion.codigo, eval_bind, heval, Option.bind_some, eval_pure]

theorem integro_discoConD : Integro montajeChico discoConD :=
  sirve_crearD.integro formateado_montajeChico integro_discoAcortado guarda_crearD

theorem integro_discoConE : Integro montajeChico discoConE :=
  sirve_moverD.integro formateado_montajeChico integro_discoConD guarda_moverD

theorem tabla_discoConD : discoConD.tabla montajeChico = tablaCon [100] := by
  have hA : ∀ k, 1 ≤ k → discoAcortado.tabla montajeChico k = none := fun k hk =>
    (congrFun tabla_discoAcortado k).trans (tablaConA_desde hk)
  exact eq_of_desde datos_conCarpeta.1.2.1 (sirve_crearD.desde formateado_montajeChico
    integro_discoAcortado guarda_crearD (by decide) hA) fun _ hk => tablaCon_desde hk

theorem tabla_discoConE : discoConE.tabla montajeChico = tablaCon [101] := by
  have hD : ∀ k, 2 ≤ k → discoConD.tabla montajeChico k = none := fun k hk =>
    (congrFun tabla_discoConD k).trans (tablaCon_desde hk)
  exact eq_of_desde datos_conCarpeta.2.2 (sirve_moverD.desde formateado_montajeChico
    integro_discoConD guarda_moverD (by decide) hD) fun _ hk => tablaCon_desde (by omega)

/-- Nothing is in `/e`. -/
theorem not_cuelga_discoConE (i : ℕ) : ¬ Cuelga montajeChico discoConE 2 i := by
  rintro ⟨hi, hvivo, hpadre⟩
  have htabla := tabla_eq_some.2 ⟨hi, hvivo, rfl⟩
  have hraices : ∀ k < 2, (tablaCon [101] k).all fun e => e.father == 0 := by decide
  rw [tabla_discoConE] at htabla
  rcases lt_or_ge i 2 with hlt | hge
  · have hraiz := hraices i hlt
    rw [htabla, Option.all_some, hpadre] at hraiz
    cases hraiz
  · rw [tablaCon_desde hge] at htabla
    cases htabla

theorem guarda_quitarE : quitarE.Guarda montajeChico discoConE := by
  rw [quitarE, Peticion.Guarda, datos_conCarpeta.2.1]
  refine .inr ⟨by decide, fun k hk => ?_⟩
  obtain ⟨i, hi⟩ := hk.1.exists_cuelga
  exact absurd hi (not_cuelga_discoConE i)

theorem sirve_quitarE :
    Sirve montajeChico (fun _ => 0) discoConE (quitarE, .resultado 0) discoSinE := by
  have heval : (oRmdir montajeChico 1 rutaE).eval discoConE = some (0, discoSinE) := by
    have huno : (2 : ℤ) - 1 = 1 := by decide
    rw [eval_oRmdir, datos_conCarpeta.2.1, if_neg (by decide),
      eval_eliminarRecursivamente_sinHijos (by decide) not_cuelga_discoConE, Option.map_some, huno,
      discoSinE]
  refine ⟨1, ?_⟩
  rw [quitarE, Peticion.codigo, eval_bind, heval, Option.bind_some, eval_pure]

/-- The requests after the creation, with their answers. -/
def trasCrearA : List (Step Estado (Peticion × Producto)) :=
  [⟨discoConA, (escribirA, .resultado 3), discoConBytes⟩,
    ⟨discoConBytes, (acortarA, .resultado 0), discoAcortado⟩,
    ⟨discoAcortado, (crearD, .resultado 0), discoConD⟩,
    ⟨discoConD, (moverD, .resultado 0), discoConE⟩,
    ⟨discoConE, (quitarE, .resultado 0), discoSinE⟩]

def historia : List (Step Estado (Peticion × Producto)) :=
  ⟨discoMontado, (crearA, .resultado 0), discoConA⟩ :: trasCrearA

theorem run_trasCrearA : Run (Sirve montajeChico fun _ => 0) discoConA trasCrearA discoSinE :=
  ((((Run.nil.snoc sirve_escribirA).snoc sirve_acortarA).snoc sirve_crearD).snoc
    sirve_moverD).snoc sirve_quitarE

theorem run_historia : Run (Sirve montajeChico fun _ => 0) discoMontado historia discoSinE :=
  (((((Run.nil.snoc sirve_crearA).snoc sirve_escribirA).snoc sirve_acortarA).snoc
    sirve_crearD).snoc sirve_moverD).snoc sirve_quitarE

theorem guarda_trasCrearA : ∀ x ∈ trasCrearA, x.label.1.Guarda montajeChico x.pre := by
  rw [trasCrearA]
  simp only [List.forall_mem_cons, List.not_mem_nil, false_imp_iff, implies_true, and_true]
  exact ⟨guarda_escribirA, guarda_acortarA, guarda_crearD, guarda_moverD, guarda_quitarE⟩

theorem guarda_historia : ∀ x ∈ historia, x.label.1.Guarda montajeChico x.pre := by
  rw [historia, List.forall_mem_cons]
  exact ⟨guarda_crearA, guarda_trasCrearA⟩

theorem tabla_of_run_historia :
    Run (Vista.Paso fun _ => 0) ⟨fun _ => none, discoMontado.bitmapFreeBlocks⟩
      (historia.map (Step.map (Estado.vista montajeChico))) (discoSinE.vista montajeChico) :=
  tabla_of_run montajeChico formateado_montajeChico (fun _ => 0) discoMontado vacio_discoMontado
    run_historia guarda_historia

/-- After careful requests the blocks at the slots of the files are marked in the bitmap and each is
at one slot, and as long as no file is removed no other block of the data area is marked. -/
theorem bienMarcado_of_run (m : Montaje) (hm : Formateado m) (basura : ℕ → UInt8) (s₀ : Estado)
    (hs : Vacio m s₀) {tr : List (Step Estado (Peticion × Producto))}
    (hrun : Run (Sirve m basura) s₀ tr s) (h : ∀ x ∈ tr, x.label.1.Guarda m x.pre) :
    SinChoques m s ∧ ((∀ x ∈ tr, DejaArchivos m x.pre x.post) → BienMarcado m s) := by
  refine ⟨(integro_of_run hm hs.integro hrun h).1.toRepartido.sinChoques, fun hdeja => ?_⟩
  have hinv := hrun.invariant (fun s => Integro m s ∧ Coherente m s)
    (fun x : Step Estado (Peticion × Producto) =>
      x.label.1.Guarda m x.pre ∧ DejaArchivos m x.pre x.post)
    ⟨hs.integro, hs.coherente⟩ (fun s e s' hs hcond hsirve => ?_) fun x hx => ⟨h x hx, hdeja x hx⟩
  · exact hinv.2.bienMarcado
  · obtain ⟨hefecto, -⟩ := paso_of_sirve hm hs.1 hcond.1 hsirve
    exact ⟨hs.1.efecto hefecto, hs.2.efecto hm hefecto hcond.2⟩

theorem dejaArchivos_of_desde {n : ℕ} (hresto : ∀ k, n ≤ k → s.tabla m k = none)
    (h : ∀ k < n, s.estado m k = ocupado → s'.estado m k ≠ borrado) : DejaArchivos m s s' := by
  intro d hd hocupado
  rcases lt_or_ge d n with hlt | hge
  · exact h d hlt hocupado
  · have hborrado := not_and.1 (tabla_eq_none.1 (hresto d hge)) hd
    rw [hocupado] at hborrado
    exact absurd (by decide) hborrado

theorem dejan_historia :
    (∀ k < 1, discoConA.estado montajeChico (k : ℕ) = ocupado →
      discoConBytes.estado montajeChico k ≠ borrado) ∧
    (∀ k < 2, discoConBytes.estado montajeChico (k : ℕ) = ocupado →
      discoAcortado.estado montajeChico k ≠ borrado) ∧
    (∀ k < 1, discoAcortado.estado montajeChico (k : ℕ) = ocupado →
      discoConD.estado montajeChico k ≠ borrado) ∧
    (∀ k < 2, discoConD.estado montajeChico (k : ℕ) = ocupado →
      discoConE.estado montajeChico k ≠ borrado) ∧
    ∀ k < 2, discoConE.estado montajeChico (k : ℕ) = ocupado →
      discoSinE.estado montajeChico k ≠ borrado := by
  decide +kernel

theorem bienMarcado_of_run_historia :
    SinChoques montajeChico discoSinE ∧ BienMarcado montajeChico discoSinE := by
  obtain ⟨hchoques, hmarcado⟩ := bienMarcado_of_run montajeChico formateado_montajeChico
    (fun _ => 0) discoMontado vacio_discoMontado run_historia guarda_historia
  refine ⟨hchoques, hmarcado ?_⟩
  obtain ⟨hA, hbytes, hacortado, hD, hE⟩ := dejan_historia
  rw [historia, trasCrearA]
  simp only [List.forall_mem_cons, List.not_mem_nil, false_imp_iff, implies_true, and_true]
  refine ⟨dejaArchivos_of_desde (n := 0) (fun k _ => congrFun vacio_discoMontado.tabla k)
    fun k hk => absurd hk (Nat.not_lt_zero k), dejaArchivos_of_desde desde_discoConA hA,
    dejaArchivos_of_desde desde_discoConBytes hbytes,
    dejaArchivos_of_desde (fun k hk => ?_) hacortado,
    dejaArchivos_of_desde (fun k hk => ?_) hD, dejaArchivos_of_desde (fun k hk => ?_) hE⟩
  · exact (congrFun tabla_discoAcortado k).trans (tablaConA_desde hk)
  · exact (congrFun tabla_discoConD k).trans (tablaCon_desde hk)
  · exact (congrFun tabla_discoConE k).trans (tablaCon_desde hk)

end Sac
