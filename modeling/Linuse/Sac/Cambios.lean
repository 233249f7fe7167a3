import Linuse.Sac.Abstracto
import Linuse.Sac.Toques

/-!
# What the requests do to the table

Each request that is careful, as a change of the table of the disk: a new node, another name, other
bytes, another size. What it needs is written where it is used: two free blocks for a new file, and
nothing in use where its pointer block is cleared.
-/

namespace Sac

open Memory Locks Locks.Code

variable {m : Montaje} {s s' t : Estado} {i n : ℤ} {k : ℕ}

/-- What a client sees of a disk. -/
def Estado.vista (m : Montaje) (s : Estado) : Vista := ⟨s.tabla m, s.bitmapFreeBlocks⟩

/-- The count of free blocks is the one before the request. -/
theorem vista_eq (h : s'.bitmapFreeBlocks = s.bitmapFreeBlocks) :
    s'.vista m = ⟨s'.tabla m, (s.vista m).libres⟩ := by
  rw [Estado.vista, h]
  rfl

theorem bloquesDe_mono {a b : ℤ} (h : a ≤ b) : bloquesDe a ≤ bloquesDe b := by
  rw [bloquesDe, bloquesDe, posiciones, posiciones]
  omega

theorem bloquesPara_eq (largo : ℕ) : bloquesPara largo = bloquesDe largo := by
  rw [bloquesPara, bloquesDe, posiciones]
  omega

/-- The table when only one node has changed. -/
theorem Cambio.tabla_eq (h : Cambio m k s s') (hs : Repartido m s) :
    s'.tabla m = Function.update (s.tabla m) k (s'.tabla m k) := by
  refine Function.eq_update_iff.2 ⟨rfl, fun j hj => ?_⟩
  exact h.tabla hs fun heq => hj (Int.natCast_inj.1 heq)

/-- The table when a node keeps its name. -/
theorem Cambio.setData (h : Cambio m k s s') (hs : Repartido m s) (hficha : MismaFicha m k s s') :
    s'.tabla m = (s.tabla m).setData k (s'.datos m k) := by
  rw [h.tabla_eq hs, Catalog.setData]
  congr 1
  rw [Estado.tabla, Estado.tabla, hficha.estado, hficha.padre, hficha.nombre]
  split_ifs <;> rfl

/-- What is no file holds nothing. -/
theorem datos_of_not (hk : k < cantidadNodos) (h : ¬ EsArchivo m s k) : s.datos m k = none := by
  rw [Estado.datos, if_neg fun hocupado => h ⟨Int.natCast_nonneg k, ?_, hocupado⟩]
  rw [cantidadNodos] at hk
  omega

theorem datos_of_archivo (h : EsArchivo m s i) : s.datos m i = some (s.archivo m i) :=
  if_pos h.2.2

/-- A node that is no file and keeps its name. -/
theorem Cambio.tabla_of_not (h : Cambio m k s s') (hs : Repartido m s)
    (hficha : MismaFicha m k s s') (hk : k < cantidadNodos) (hno : ¬ EsArchivo m s k) :
    s'.tabla m = s.tabla m := by
  rw [h.setData hs hficha, datos_of_not hk fun harchivo => hno (harchivo.de_ficha hficha),
    Catalog.setData]
  refine Function.update_eq_self_iff.2 ?_
  rw [Estado.tabla, datos_of_not hk hno]
  split_ifs <;> rfl

/-! ## A new node -/

section Alta

variable {nombre : List UInt8} {padre : ℕ} {estado : UInt8}

/-- What the first writes of a creation put in the slot. -/
theorem nodoNuevo_nombre (i : ℤ) (estado : UInt8) (padre : ℕ) (s : Estado) (hsin : 0 ∉ nombre)
    (hnombre : nombre.length ≤ 70) :
    isString (nodoNuevo m i estado nombre padre s).mem (dirNombre m i) nombre = true ∧
      (nodoNuevo m i estado nombre padre s).nombre m i = nombre := by
  have hmem : ∀ j : ℕ, j ≤ nombre.length →
      (nodoNuevo m i estado nombre padre s).mem (dirNombre m i + j) =
        ((s.ponerEstado m i estado).ponerNombre m i nombre).mem (dirNombre m i + j) := by
    intro j hj
    rw [nodoNuevo, ponerPadre_mem _ _ _ (by rw [dirNombre, dirPadre]; omega),
      ponerTamanio_mem _ _ _ (by rw [dirNombre, dirTamanio]; omega)]
  have hes : isString (nodoNuevo m i estado nombre padre s).mem (dirNombre m i) nombre = true := by
    rw [isString_congr hmem]
    exact isString_storeString _ _ _
  exact ⟨hes, cadena_eq_of_isString hsin (by omega) hes⟩

theorem nodoNuevo_padre (s : Estado) (hpadre : padre ≤ cantidadNodos) :
    (nodoNuevo m i estado nombre padre s).padre m i = padre := by
  rw [cantidadNodos] at hpadre
  rw [nodoNuevo, padre_ponerPadre, unsigned_eq_self (by omega) (by omega)]

/-- A slot with these writes is a node of the table. -/
theorem toca_alta (hk : k < cantidadNodos) (h : CambioJusto m k s s')
    (hmodo : s'.delMode = s.delMode) (htipo : estado = ocupado ∨ estado = directorio)
    (hsin : 0 ∉ nombre) (hnombre : nombre.length ≤ 70)
    (hpadre : padre ≤ cantidadNodos)
    (hficha : MismaFicha m k (nodoNuevo m k estado nombre padre s) s') :
    Toca m k s s' ∧ s'.tabla m k = some ⟨padre, nombre, s'.datos m k⟩ := by
  obtain ⟨hes, hlee⟩ := @nodoNuevo_nombre m nombre k estado padre s hsin hnombre
  have hestado : s'.estado m k = estado := hficha.estado.trans estado_nodoNuevo
  have hsana : FichaSana m (nodoNuevo m k estado nombre padre s) k := by
    refine ⟨⟨nombre.length, by omega, isString_fin hes⟩, ?_, ?_⟩
    · rw [nodoNuevo_padre s hpadre]
      exact Int.ofNat_le.2 hpadre
    · rwa [estado_nodoNuevo]
  refine ⟨⟨h, hmodo, fun _ _ _ => hsana.ficha hficha⟩, tabla_eq_some.2 ⟨hk, ?_, ?_⟩⟩
  · rw [hestado]
    rcases htipo with rfl | rfl <;> decide
  · rw [hficha.padre, nodoNuevo_padre s hpadre, hficha.nombre, hlee, Int.toNat_natCast]

/-- A new directory in the first slot that is not in use. -/
theorem toca_crearDirectorio (hm : Formateado m) (hs : Repartido m s)
    (hk : nodoLibre m s = some k) (hsin : 0 ∉ nombre) (hnombre : nombre.length ≤ 70)
    (hpadre : padre ≤ cantidadNodos) {r : ℤ × Estado}
    (hcrear : crearDirectorio m nombre padre s = some r) :
    r.1 = 0 ∧ Toca m k s r.2 ∧ SoloMemoria s r.2 ∧
      r.2.tabla m = (s.tabla m).put k ⟨padre, nombre, none⟩ := by
  obtain ⟨hk', hborrado⟩ := nodoLibre_eq_some hk
  have hlt : (k : ℤ) < 1024 := by
    rw [cantidadNodos] at hk'
    omega
  rw [crearDirectorio, hk] at hcrear
  obtain rfl := Option.some.inj hcrear
  change 0 = (0 : ℤ) ∧ Toca m k s (nodoNuevo m k directorio nombre padre s) ∧
    SoloMemoria s (nodoNuevo m k directorio nombre padre s) ∧
    (nodoNuevo m k directorio nombre padre s).tabla m = _
  have hcambio : CambioJusto m k s (nodoNuevo m k directorio nombre padre s) := by
    refine (soloNodo_nodoNuevo hnombre s).cambio hm hs (Int.natCast_nonneg k) hlt ?_ ?_
    · rintro ⟨-, -, hocupado⟩
      rw [hborrado] at hocupado
      cases hocupado
    · rintro ⟨-, -, hocupado⟩
      rw [estado_nodoNuevo] at hocupado
      cases hocupado
  obtain ⟨htoca, htabla⟩ := toca_alta hk' hcambio rfl (.inr rfl) hsin hnombre hpadre
    fun _ _ _ => rfl
  refine ⟨rfl, htoca, ⟨_, rfl⟩, ?_⟩
  rw [hcambio.tabla_eq hs, htabla, Estado.datos, estado_nodoNuevo]
  rfl

/-- The blocks that a new file takes: two are free, and nothing in use is cleared. -/
def LugarNuevo (m : Montaje) (s : Estado) : Prop :=
  ∃ d e l, libres m s = d :: e :: l ∧ Limpio m s e

theorem toca_crearArchivo (hm : Formateado m) (hs : Repartido m s) (hk : nodoLibre m s = some k)
    (hlugar : LugarNuevo m s) (hsin : 0 ∉ nombre) (hnombre : nombre.length ≤ 70)
    (hpadre : padre ≤ cantidadNodos) {ahora : ℕ} {r : ℤ × Estado}
    (hcrear : crearArchivo m ahora nombre padre s = some r) :
    r.1 = 0 ∧ Toca m k s r.2 ∧ SoloMemoria s r.2 ∧
      r.2.tabla m = (s.tabla m).put k ⟨padre, nombre, some []⟩ := by
  obtain ⟨d, e, l, hlibres, hlimpio⟩ := hlugar
  obtain ⟨hcambio, hmemoria, htamanio, hficha, hres⟩ :=
    cambio_crearArchivo hm hs hk hlibres hlimpio hnombre hcrear
  obtain ⟨htoca, htabla⟩ := toca_alta (nodoLibre_eq_some hk).1 hcambio hmemoria.delMode (.inl rfl)
    hsin hnombre hpadre hficha
  have hocupado : r.2.estado m k = ocupado := hficha.estado.trans estado_nodoNuevo
  refine ⟨hres, htoca, hmemoria, ?_⟩
  rw [hcambio.tabla_eq hs, htabla, Estado.datos, if_pos hocupado, Estado.archivo, htamanio]
  rfl

/-! ## Another name -/

/-- A node of the table goes to another father, with another name. -/
theorem toca_renombrar (hm : Formateado m) (hs : Integro m s) (hk : k < cantidadNodos)
    (hvivo : s.estado m k ≠ borrado) (hsin : 0 ∉ nombre) (hnombre : nombre.length ≤ 70)
    (hpadre : padre ≤ cantidadNodos) :
    Toca m k s (renombrar m (k + 1) padre nombre s) ∧
      (renombrar m (k + 1) padre nombre s).tabla m =
        (s.tabla m).move k padre nombre := by
  generalize hs' : renombrar m (k + 1) padre nombre s = s'
  have hk0 := Int.natCast_nonneg k
  have hlt : (k : ℤ) < 1024 := by
    rw [cantidadNodos] at hk
    omega
  have hmem : ∀ x, x < m.nodo k + 1 ∨ m.nodo k + 76 ≤ x → s'.mem x = s.mem x := by
    intro x hx
    rw [← hs']
    exact renombrar_mem hnombre (by rwa [add_sub_cancel_right])
  have hestado : s'.estado m k = s.estado m k := hmem _ (by rw [dirEstado]; omega)
  have htamanio : s'.tamanio m k = s.tamanio m k :=
    load32_congr fun x hx => hmem _ (by rw [dirTamanio]; omega)
  have hsolo : SoloNodo m k s s' := fun x hx => hmem x (by omega)
  have hindirecto : ∀ x, dirIndirecto m k 0 ≤ x → s'.mem x = s.mem x := fun x hx =>
    hmem x (.inr (by rw [dirIndirecto] at hx; omega))
  have hcambio : CambioJusto m k s s' := by
    by_cases harchivo : EsArchivo m s k
    · exact hsolo.cambio_campos hm hs.toRepartido harchivo hestado hindirecto (by rw [htamanio])
    · refine hsolo.cambio hm hs.toRepartido hk0 hlt harchivo ?_
      exact fun h => harchivo ⟨h.1, h.2.1, hestado.symm.trans h.2.2⟩
  have hes : isString s'.mem (dirNombre m k) nombre = true := by
    rw [← hs']
    exact nombre_renombrar hnombre
  have hlee : s'.nombre m k = nombre := cadena_eq_of_isString hsin (by omega) hes
  have hpadre' : s'.padre m k = padre := by
    rw [← hs']
    rw [cantidadNodos] at hpadre
    exact padre_renombrar (by omega) (by omega)
  have hmodo : s'.delMode = s.delMode := by
    rw [← hs']
    rfl
  have hdatos : s'.datos m k = s.datos m k := by
    rw [Estado.datos, Estado.datos, hestado]
    split_ifs with hocupado
    · have hmapa := (hs.mapas k ⟨hk0, hlt, hocupado⟩).toMapa
      rw [archivo_eq_of_bytes htamanio (hmapa.bytes_congr hindirecto).2.2]
    · rfl
  refine ⟨⟨hcambio, hmodo, fun _ _ _ => ?_⟩, ?_⟩
  · refine ⟨⟨nombre.length, by omega, isString_fin hes⟩, ?_, ?_⟩
    · rw [hpadre']
      exact Int.ofNat_le.2 hpadre
    · rw [hestado]
      exact (hs.fichas k hk0 hlt hvivo).tipo
  · rw [hcambio.tabla_eq hs.toRepartido, Catalog.move]
    congr 1
    rw [tabla_eq_some.2 ⟨hk, hvivo, rfl⟩, Option.map_some]
    refine tabla_eq_some.2 ⟨hk, hestado ▸ hvivo, ?_⟩
    rw [hpadre', hlee, hdatos, Int.toNat_natCast]

end Alta

/-! ## Other bytes -/

/-- A write puts all the bytes, or, when no block is counted as free, those that fit in the blocks
of the file. -/
theorem toca_bucleWrite (hm : Formateado m) (hs : Integro m s) (hi : EsArchivo m s k) {off : ℕ}
    {buf : List UInt8} (hoff : (off : ℤ) ≤ s.tamanio m k)
    (hlugar : faltan m s k (off + buf.length) ≤ (libres m s).length)
    (h : Encaja m s off k buf.length) {fuel ahora : ℕ} {r : ℤ × Estado}
    (heval : bucleWrite m ahora k buf.length fuel (Escritura.inicio (s.tamanio m k) off buf) s =
      some r) :
    Toca m k s r.2 ∧ SoloMemoria s r.2 ∧ ∃ n, Alcanza m k buf.length off buf s n r.1 ∧
      r.2.tabla m = (s.tabla m).setData k (some (overwrite (s.archivo m k) off (buf.take n))) := by
  obtain ⟨n, hescrito, halcanza⟩ := escrito_of_encaja hm (hs.mapas k hi) hoff hlugar h heval
  have hcambio := hescrito.extiende.cambio hm hs.toRepartido hi hescrito.mapa
  have hficha := hescrito.extiende.fichas k hi.1 hi.2.1
  have hmemoria := soloMemoria_bucleWrite heval
  refine ⟨hcambio.toca hs hi.1 hi.2.1 hmemoria.delMode hficha, hmemoria, n, halcanza, ?_⟩
  rw [hcambio.setData hs.toRepartido hficha, datos_of_archivo (hi.ficha hficha), hescrito.archivo]

/-! ## Other sizes -/

theorem take_contenido {desde a b : ℕ} (h : a ≤ b) :
    (s.contenido m i desde b).take a = s.contenido m i desde a := by
  rw [Estado.contenido, ← List.map_take, List.take_range, min_eq_left h]
  rfl

theorem conserva_archivo (htamanio : s'.tamanio m i = n)
    (hbytes : ∀ x : ℕ, (x : ℤ) < s.tamanio m i → (x : ℤ) < n → s'.byteDe m i x = s.byteDe m i x) :
    Conserva (s.archivo m i) n (s'.archivo m i) := by
  have hnonneg := tamanio_nonneg m s' i
  have hlen : (s'.archivo m i).length = n.toNat := by
    rw [Estado.archivo, length_contenido, htamanio]
  refine ⟨by omega, ?_⟩
  rw [Estado.archivo, Estado.archivo, htamanio, length_contenido]
  rcases le_total (s.tamanio m i) n with hle | hle
  · rw [take_contenido (by omega), List.take_of_length_le (by rw [length_contenido]; omega)]
    exact contenido_congr fun x _ hx => hbytes x (by omega) (by omega)
  · rw [List.take_of_length_le (by rw [length_contenido]; omega), take_contenido (by omega)]
    exact contenido_congr fun x _ hx => hbytes x (by omega) (by omega)

/-- The table shows node `k` with `n` bytes, if it is a file, and is as it was if not. -/
def Redimensionado (m : Montaje) (k : ℕ) (n : ℤ) (s s' : Estado) : Prop :=
  (EsArchivo m s k → ∃ bytes, Conserva (s.archivo m k) n bytes ∧
      s'.tabla m = (s.tabla m).setData k (some bytes)) ∧
    (¬ EsArchivo m s k → s'.tabla m = s.tabla m)

theorem Cambio.redimensionado (h : Cambio m k s s') (hs : Repartido m s) (hk : k < cantidadNodos)
    (hficha : MismaFicha m k s s') (htamanio : EsArchivo m s k → s'.tamanio m k = n)
    (hbytes : EsArchivo m s k → ∀ x : ℕ, (x : ℤ) < s.tamanio m k →
      s'.byteDe m k x = s.byteDe m k x) : Redimensionado m k n s s' := by
  refine ⟨fun hi => ?_, fun hno => h.tabla_of_not hs hficha hk hno⟩
  refine ⟨_, conserva_archivo (htamanio hi) fun x hx _ => hbytes hi x hx, ?_⟩
  rw [h.setData hs hficha, datos_of_archivo (hi.ficha hficha)]

/-- Another size with the same blocks. -/
theorem SoloCampos.redimensionado (h : SoloCampos m k s s') (hm : Formateado m) (hs : Integro m s)
    (hk : k < cantidadNodos) (hmodo : s'.delMode = s.delMode)
    (htamanio : EsArchivo m s k → s'.tamanio m k = n)
    (hbloques : EsArchivo m s k → bloquesDe n = bloquesDe (s.tamanio m k)) :
    Toca m k s s' ∧ Redimensionado m k n s s' := by
  have hk0 := Int.natCast_nonneg k
  have hlt : (k : ℤ) < 1024 := by
    rw [cantidadNodos] at hk
    omega
  have hcambio := h.cambio hm hs.toRepartido hk0 hlt fun hi => by rw [htamanio hi, hbloques hi]
  refine ⟨hcambio.toca hs hk0 hlt hmodo h.ficha,
    hcambio.redimensionado hs.toRepartido hk h.ficha htamanio fun hi x hx => ?_⟩
  exact h.byteDe (hs.mapas k hi).toMapa (div_lt_bloquesDe hx)

/-! ## A smaller size -/

theorem delMode_borrarDatos {aux hasta : ℤ} :
    ∀ {fuel : ℕ} {x y : ℤ} {s : Estado},
      (borrarDatos m aux hasta fuel x).eval s = some (y, s') → s'.delMode = s.delMode
  | 0, _, _, _, h => by cases h
  | fuel + 1, x, y, s, h => by
      rw [borrarDatos, eval_bind, leerModo, eval_read, Option.bind_some] at h
      split_ifs at h
      · cases h
        rfl
      · rw [eval_bind, eval_read, Option.bind_some, eval_bind, eval_modify, Option.bind_some,
          eval_bind, eval_modify, Option.bind_some] at h
        have hmodo := delMode_borrarDatos h
        exact hmodo

theorem delMode_borrarPunteros {pointerUpto dataUpto : ℤ} :
    ∀ {fuel : ℕ} {p x : ℤ} {s : Estado},
      (borrarPunteros m i pointerUpto dataUpto fuel p x).eval s = some ((), s') →
        s'.delMode = s.delMode
  | 0, _, _, _, h => by cases h
  | fuel + 1, p, x, s, h => by
      rw [borrarPunteros, eval_bind, leerModo, eval_read, Option.bind_some] at h
      dsimp only at h
      generalize (if p = pointerUpto then dataUpto else 0) = hasta at h
      split_ifs at h
      · cases h
        rfl
      · cases h
        rfl
      · rw [eval_bind, eval_read, Option.bind_some] at h
        obtain ⟨y, t, hdatos, h⟩ := eval_bind_some h
        rw [eval_bind, eval_read, Option.bind_some] at h
        rw [← delMode_borrarDatos hdatos]
        split_ifs at h
        · have hmodo := delMode_borrarPunteros h
          exact hmodo
        · rw [eval_bind, eval_modify, Option.bind_some, eval_bind, eval_modify,
            Option.bind_some] at h
          have hmodo := delMode_borrarPunteros h
          exact hmodo

theorem delMode_eliminarNodos {pointerUpto dataUpto : ℤ} {fuel : ℕ} (hs : s.delMode = false)
    (h : (eliminarNodos m fuel i pointerUpto dataUpto).eval s = some ((), s')) :
    s'.delMode = false := by
  rw [eval_eliminarNodos_apagado hs] at h
  exact (delMode_borrarPunteros h).trans hs

/-- A file that is cut keeps its first bytes, and the blocks that it does not need any more are
counted as free. -/
theorem toca_eliminarNodos (hm : Formateado m) (hs : Integro m s) (hi : EsArchivo m s k)
    (hn : 0 ≤ n) (hle : n ≤ s.tamanio m k) (hmax : n < 2147483648) (h : CorteSano m s k n)
    {fuel : ℕ}
    (heval : (eliminarNodos m fuel k (settearPosicion n).1 (settearPosicion n).2).eval s =
      some ((), t)) :
    Toca m k s (t.ponerTamanio m k n) ∧ Redimensionado m k n s (t.ponerTamanio m k n) ∧
      t.bitmapFreeBlocks =
        s.bitmapFreeBlocks + (bloquesDe (s.tamanio m k) - bloquesDe n : ℕ) := by
  have hmapa := hs.mapas k hi
  obtain ⟨fuel', u, heval', hrecortado, hcontador, hmem⟩ :=
    recorta_of_sano hmapa hs.modo hn hle hmax h
  have hunico := eval_unique (extends_eliminarNodos (k : ℤ) (settearPosicion n).1
    (settearPosicion n).2) heval heval'
  obtain rfl : t = u := congrArg Prod.snd hunico
  have hcambio := hrecortado.cambio hm hs.toRepartido hi hmem hn hle
  have hmodo : (t.ponerTamanio m k n).delMode = s.delMode :=
    (delMode_eliminarNodos hs.modo heval).trans hs.modo.symm
  have htamanio : (t.ponerTamanio m k n).tamanio m k = n := by
    rw [tamanio_ponerTamanio, unsigned_eq_self hn (by omega)]
  have hnodo := nodo_eq m k
  have hk := hi.1
  have hcampos : ∀ x, m.nodo 0 ≤ x → (x < m.nodo k + 76 ∨ m.nodo k + 96 ≤ x) →
      (t.ponerTamanio m k n).mem x = s.mem x := fun x hx hx' =>
    (soloCampos_ponerTamanio m k t n x hx').trans (hmem x hx)
  have hficha : MismaFicha m k s (t.ponerTamanio m k n) := fun x hx hx' =>
    hcampos x (by omega) (.inl hx')
  have hbytes := (hmapa.toMapa.bytes_congr fun x hx =>
    hcampos x (by rw [dirIndirecto] at hx; omega) (.inr (by rw [dirIndirecto] at hx; omega))).2.2
  have hk' : k < cantidadNodos := by
    have hlt := hi.2.1
    rw [cantidadNodos]
    omega
  exact ⟨hcambio.toca hs hi.1 hi.2.1 hmodo hficha, hcambio.redimensionado hs.toRepartido hk' hficha
    (fun _ => htamanio) fun _ x hx => hbytes x (div_lt_bloquesDe hx), hcontador⟩

/-- What is no file has no positions to release. -/
theorem toca_sinPosiciones (hm : Formateado m) (hs : Integro m s) (hk : k < cantidadNodos)
    (hno : ¬ EsArchivo m s k) (hsin : SinPosiciones m s k) {fuel : ℕ} {pointer data : ℤ}
    (heval : (eliminarNodos m fuel k pointer data).eval s = some ((), t)) :
    Toca m k s (t.ponerTamanio m k n) ∧ Redimensionado m k n s (t.ponerTamanio m k n) ∧
      t = s := by
  have hnada := eval_borrarPunteros_fuera (m := m) (i := k) pointer data _ _ hsin 0 s
  rw [← eval_eliminarNodos_apagado hs.modo] at hnada
  have hunico := eval_unique (extends_eliminarNodos (k : ℤ) pointer data) heval hnada
  obtain rfl : t = s := congrArg Prod.snd hunico
  obtain ⟨htoca, hcambia⟩ := (soloCampos_ponerTamanio m k t n).redimensionado hm hs hk rfl
    (fun hi => absurd hi hno) fun hi => absurd hi hno
  exact ⟨htoca, hcambia, rfl⟩

/-! ## A larger size -/

/-- The request is refused; or the file, or what is no file, has room in its last block; or enough
blocks are free, the first new position is the first that the loop adds, it adds as many as are
needed, and nothing in use is cleared. -/
def CreceSano (m : Montaje) (s : Estado) (i n : ℤ) : Prop :=
  Rechaza m s i n ∨ ¬ EsArchivo m s i ∧ unsigned (n - s.tamanio m i) ≤ espacioFinal m s i ∨
    EsArchivo m s i ∧ n < 2147483648 ∧ faltan m s i n ≤ (libres m s).length ∧
      (s.tamanio m i % 4096 ≠ 0 ∨ s.tamanio m i = 0 ∧ (n = 4096 ∨ n % 4096 ≠ 0)) ∧ Limpia m s i n

theorem byteDe_of_archivo (h : s'.archivo m i = s.archivo m i)
    (htamanio : s'.tamanio m i = s.tamanio m i) {x : ℕ} (hx : (x : ℤ) < s.tamanio m i) :
    s'.byteDe m i x = s.byteDe m i x := by
  have hlt : x < (s.contenido m i 0 (s.tamanio m i).toNat).length := by
    rw [length_contenido]
    omega
  rw [Estado.archivo, Estado.archivo, htamanio] at h
  have hlt' : x < (s'.contenido m i 0 (s.tamanio m i).toNat).length := by rwa [h]
  have hbyte := contenido_getElem hlt
  have hbyte' := contenido_getElem hlt'
  rw [Nat.zero_add] at hbyte hbyte'
  rw [← hbyte, ← hbyte']
  simp only [h]

/-- The loop of `darleEspacioNuevo` adds `t` positions after those that the file has. -/
theorem extiende_agregarBloques (hm : Formateado m) {espacio resto : ℤ} (hespacio : espacio ≤ 4096)
    (hresto : 0 ≤ resto) (hlt : resto < espacio) :
    ∀ (t fuel k : ℕ) (s : Estado), 0 < k → MapaCompleto m s i k → s.tamanio m i = 4096 * k →
      k + t ≤ 524288 → cuantos k t ≤ (libres m s).length →
      (∀ p : ℕ, k ≤ 1024 * p → 1024 * p < k + t → Limpio m s (bloquePunteros m s i k p)) →
      agregarBloques m i espacio fuel (resto + 4096 * t) s = some s' →
        MapaCompleto m s' i (k + t) ∧ Extiende m i k (k + t) s s' ∧
          ∀ x : ℕ, x / 4096 < k → s'.byteDe m i x = s.byteDe m i x
  | _, 0, _, _, _, _, _, _, _, _, h => by cases h
  | 0, fuel + 1, k, s, _, hmapa, _, _, _, _, h => by
      have hunsigned : unsigned (resto + 4096 * (0 : ℕ)) = resto := by
        rw [unsigned]
        omega
      rw [agregarBloques, hunsigned, if_neg (not_le.2 hlt)] at h
      obtain rfl := Option.some.inj h
      have hcampos := soloCampos_ponerTamanio m i s
      exact ⟨(hcampos _).mapaCompleto hmapa, (hcampos _).extiende hmapa,
        fun _ => (hcampos _).byteDe hmapa.toMapa⟩
  | t + 1, fuel + 1, k, s, hk, hmapa, htamanio, hmax, hlugar, hlimpia, h => by
      have hunsigned : unsigned (resto + 4096 * (t + 1 : ℕ)) = resto + 4096 * (t + 1 : ℕ) := by
        rw [unsigned]
        omega
      have hsize : resto + 4096 * (t + 1 : ℕ) - 4096 = resto + 4096 * t := by
        push_cast
        ring
      have hsuma : k + (t + 1) = k + 1 + t := by ring
      have hcuantos : cuantos k (t + 1) = cuantos k 1 + cuantos (k + 1) t := by
        rw [add_comm t 1, cuantos_add]
      obtain ⟨b, s₁, hobtiene, hagrega, hcrecido⟩ := exists_crecido hm hmapa hk (by omega)
        htamanio (by omega) fun _ => hlimpia (k / 1024) (by omega) (by omega)
      rw [agregarBloques, hunsigned, if_pos (by omega), hsize] at h
      obtain ⟨q, hq, h⟩ := Option.bind_eq_some_iff.1 h
      obtain rfl := Option.some.inj (hobtiene.symm.trans hq)
      obtain ⟨q', hq', h⟩ := Option.bind_eq_some_iff.1 h
      obtain rfl := Option.some.inj (hagrega.symm.trans hq')
      dsimp only at h
      generalize hs₂ : s₁.ponerTamanio m i (s₁.tamanio m i + 4096) = s₂ at h
      have hcampos : SoloCampos m i s₁ s₂ := hs₂ ▸ soloCampos_ponerTamanio m i s₁ _
      have hmapa₂ := hcampos.mapaCompleto hcrecido.mapa
      have hbits : ∀ x, EnBitmap m x → s₂.testBit m x = s₁.testBit m x := fun x =>
        hcampos.testBit hmapa.nodo_nonneg
      have htamanio₂ : s₂.tamanio m i = 4096 * (k + 1 : ℕ) := by
        rw [← hs₂, tamanio_ponerTamanio, hcrecido.tamanio, htamanio, unsigned]
        omega
      have hlugar₂ : cuantos (k + 1) t ≤ (libres m s₂).length := by
        rw [libres_congr hm hbits, hcrecido.libres_eq, List.length_drop]
        omega
      have hlimpia₂ : ∀ p : ℕ, k + 1 ≤ 1024 * p → 1024 * p < k + 1 + t →
          Limpio m s₂ (bloquePunteros m s₂ i (k + 1) p) := fun p hp hp' =>
        limpio_congr hm hbits hp (hcrecido.limpia (L := k + (t + 1))
          (by rwa [Nat.add_sub_cancel_left]) hlimpia hp (by omega))
      obtain ⟨hmapa', hextiende, hbytes⟩ := extiende_agregarBloques hm hespacio hresto hlt t fuel
        (k + 1) s₂ (Nat.succ_pos k) hmapa₂ htamanio₂ (by omega) hlugar₂ hlimpia₂ h
      rw [hsuma]
      refine ⟨hmapa', hcrecido.extiende.trans ((hcampos.extiende hcrecido.mapa).trans hextiende),
        fun x hx => ?_⟩
      rw [hbytes x (by omega), hcampos.byteDe hcrecido.mapa.toMapa (by omega)]
      exact byteDe_of_archivo hcrecido.archivo hcrecido.tamanio (by omega)

/-- `darleEspacioNuevo`, and the size that `o_truncate` sets after it. -/
theorem toca_darleEspacioNuevo (hm : Formateado m) (hs : Integro m s) (hk : k < cantidadNodos)
    (hlt : s.tamanio m k < n) (h : CreceSano m s k n) {fuel : ℕ} {res : ℤ}
    (heval : darleEspacioNuevo m fuel k (n - s.tamanio m k) s = some (res, t)) :
    Rechaza m s k n ∧ res = enospc ∧ t = s ∨
      ¬ Rechaza m s k n ∧ res = 0 ∧ Toca m k s (t.ponerTamanio m k n) ∧
        SoloMemoria s t ∧ Redimensionado m k n s (t.ponerTamanio m k n) := by
  have hnonneg := tamanio_nonneg m s k
  have hdos : ∀ x, SoloCampos m k s ((s.ponerTamanio m k x).ponerTamanio m k n) := fun x =>
    (soloCampos_ponerTamanio m k s x).trans (soloCampos_ponerTamanio m k _ n)
  rw [darleEspacioNuevo] at heval
  split_ifs at heval with hrechaza hcabe
  · cases heval
    exact .inl ⟨hrechaza, rfl, rfl⟩
  · cases heval
    right
    rcases h.resolve_left hrechaza with ⟨hno, -⟩ | ⟨-, hmax, -, hforma, -⟩
    · obtain ⟨htoca, hcambia⟩ := (hdos _).redimensionado hm hs hk rfl (fun hi => absurd hi hno)
        fun hi => absurd hi hno
      exact ⟨hrechaza, rfl, htoca, ⟨_, rfl⟩, hcambia⟩
    · rw [unsigned_pedido hlt hmax] at hcabe
      have hbloques : bloquesDe n = bloquesDe (s.tamanio m k) := by
        rw [bloquesDe, bloquesDe, posiciones, posiciones]
        omega
      obtain ⟨htoca, hcambia⟩ := (hdos _).redimensionado hm hs hk rfl
        (fun _ => by rw [tamanio_ponerTamanio, unsigned_eq_self (by omega) (by omega)])
        fun _ => hbloques
      exact ⟨hrechaza, rfl, htoca, ⟨_, rfl⟩, hcambia⟩
  · obtain ⟨-, hcabe'⟩ | ⟨hi, hmax, hlugar, hforma, hlimpia⟩ := h.resolve_left hrechaza
    · exact absurd hcabe' hcabe
    rw [unsigned_pedido hlt hmax] at hcabe
    obtain ⟨u, hu, heq⟩ := Option.map_eq_some_iff.1 heval
    obtain rfl : u = t := congrArg Prod.snd heq
    obtain rfl : 0 = res := congrArg Prod.fst heq
    have hmemoria : SoloMemoria s u := (SoloMemoria.trans ⟨_, rfl⟩ (soloMemoria_agregarBloques hu))
    have hespacio := espacioFinal_pos m s k
    have hresto : (n - s.tamanio m k) % 4096 < espacioFinal m s k := by
      by_contra hno
      have hciego : agregarBloquesCiegos m (fun _ => 0) k (espacioFinal m s k) fuel
          (n - s.tamanio m k) _ = some u := agregarBloquesCiegos_eq hu
      rw [agregarBloquesCiegos_eq_none _ _ _ (not_lt.1 hno)] at hciego
      cases hciego
    have hbloques := bloquesDe_bucle hlt hresto (by omega)
    have hpedido : n - s.tamanio m k =
        (n - s.tamanio m k) % 4096 + 4096 * (((n - s.tamanio m k) / 4096).toNat : ℕ) := by omega
    have hmapa := hs.mapas k hi
    have hcampos := soloCampos_ponerTamanio m k s
      (s.tamanio m k + (4096 - s.tamanio m k % 4096))
    have hK : s.tamanio m k + (4096 - s.tamanio m k % 4096) =
        4096 * (bloquesDe (s.tamanio m k) : ℕ) := by
      rw [bloquesDe, posiciones]
      omega
    have hbits : ∀ x, EnBitmap m x → (s.ponerTamanio m k _).testBit m x = s.testBit m x :=
      fun x => hcampos.testBit hi.1
    rw [hpedido] at hu
    rw [faltan, ← hbloques, Nat.add_sub_cancel_left] at hlugar
    rw [Limpia, ← hbloques] at hlimpia
    obtain ⟨hmapa', hextiende, hbytes⟩ := extiende_agregarBloques hm hespacio.2 (by omega) hresto _
      fuel (bloquesDe (s.tamanio m k)) _ (lt_of_lt_of_le one_pos (le_max_left _ _))
      (hcampos.mapaCompleto hmapa)
      (by rw [tamanio_ponerTamanio, hK, unsigned_eq_self (by omega)
        (by rw [bloquesDe, posiciones]; omega)])
      (by rw [hbloques, bloquesDe, posiciones]; omega) (by rwa [libres_congr hm hbits])
      (fun p hp hp' => limpio_congr hm hbits hp (hlimpia p hp hp')) hu
    have hfin := soloCampos_ponerTamanio m k u n
    have htamanio : (u.ponerTamanio m k n).tamanio m k = n := by
      rw [tamanio_ponerTamanio, unsigned_eq_self (by omega) (by omega)]
    rw [hbloques] at hmapa' hextiende
    have hentero := (hcampos.extiende hmapa).trans (hextiende.trans (hfin.extiende hmapa'))
    have hficha := hentero.fichas k hi.1 hi.2.1
    have hcambio : CambioJusto m k s (u.ponerTamanio m k n) := by
      refine Extiende.cambio hm hs.toRepartido hi ?_ ?_
      · rwa [htamanio]
      · rw [htamanio]
        exact hfin.mapaCompleto hmapa'
    refine .inr ⟨hrechaza, rfl, hcambio.toca hs hi.1 hi.2.1 hmemoria.delMode hficha, hmemoria,
      hcambio.redimensionado hs.toRepartido hk hficha (fun _ => htamanio) fun _ x hx => ?_⟩
    have hx' := div_lt_bloquesDe hx
    have hle : bloquesDe (s.tamanio m k) ≤ bloquesDe n := by omega
    rw [hfin.byteDe hmapa'.toMapa (hx'.trans_le hle), hbytes x hx',
      hcampos.byteDe hmapa.toMapa hx']

end Sac
