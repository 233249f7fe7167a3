import Linuse.Sac.Cambios
import Linuse.Sac.Evaluacion
import Linuse.Sac.Lectura

/-!
# The server is the file system that a client sees

Each request that is careful (`Peticion.Guarda`) answers what the table of the disk says, and leaves
the table that the request leaves (`paso_of_sirve`).
-/

namespace Sac

open Memory Locks Locks.Code

variable {m : Montaje} {s s' t : Estado} {path : Ruta} {res n : ℤ}

/-! ## Paths -/

theorem numero_eq_neg_one {o : Option ℕ} : numero o = -1 ↔ o = none := by
  cases o with
  | none => exact iff_of_true rfl rfl
  | some k =>
      rw [numero_some]
      exact iff_of_false (by omega) (Option.some_ne_none k)

theorem nodoDe_path (hs : FichasSanas m s) (path : Ruta) :
    nodoDe m s path.cola = numero ((s.tabla m).nodo path) :=
  nodoDe_eq_resolve hs path.sinNul

theorem nodo_eq_none (hs : FichasSanas m s) :
    (s.tabla m).nodo path = none ↔ nodoDe m s path.cola = -1 := by
  rw [nodoDe_path hs, numero_eq_neg_one]

/-- A path that resolves to a node of the table. -/
theorem exists_nodo (hs : FichasSanas m s) (h : 0 < nodoDe m s path.cola) :
    ∃ k < cantidadNodos, nodoDe m s path.cola = (k : ℤ) + 1 ∧
      (s.tabla m).nodo path = some (k + 1) ∧ s.estado m k ≠ borrado := by
  rcases nodoDe_cases m s path.cola with heq | heq | ⟨k, hk, heq, hvivo⟩
  · omega
  · omega
  · refine ⟨k, hk, heq, ?_, hvivo⟩
    rw [nodoDe_path hs] at heq
    cases hnodo : (s.tabla m).nodo path with
    | none =>
        rw [hnodo, numero_none] at heq
        omega
    | some j =>
        rw [hnodo, numero_some] at heq
        congr 1
        omega

/-- What `dividirRuta` takes off a path is its name; the rest is the path of its directory. -/
theorem dividirRuta_partes (hs : FichasSanas m s) {partes : List UInt8 × List UInt8}
    (h : dividirRuta path.cola = some partes) :
    partes.2 = path.nombre ∧ 0 ∉ path.nombre ∧
      nodoDe m s partes.1 = numero ((s.tabla m).madre path) := by
  obtain ⟨hsuper, hnombre⟩ := sinNul_dividirRuta path.sinNul h
  have hcomponentes := componentes_eq h
  have hpartes : partes.2 = path.nombre := by
    rw [Ruta.nombre, hcomponentes, List.getLastD_concat]
  refine ⟨hpartes, hpartes ▸ hnombre, ?_⟩
  rw [nodoDe_eq_resolve hs hsuper, Tabla.madre, hcomponentes, List.dropLast_concat]

theorem le_of_numero {q : ℕ} (h : nodoDe m s path.cola = q) : q ≤ cantidadNodos := by
  rcases nodoDe_cases m s path.cola with heq | heq | ⟨k, hk, heq, -⟩ <;> omega

/-- A node that is in use has an entry. -/
theorem exists_entrada {k : ℕ} (hk : k < cantidadNodos) (hvivo : s.estado m k ≠ borrado) :
    s.tabla m k = some ⟨(s.padre m k).toNat, s.nombre m k, s.datos m k⟩ :=
  tabla_eq_some.2 ⟨hk, hvivo, rfl⟩

/-! ## Creating -/

/-- The slots of the table that are not in use are free on the disk. -/
theorem isLeast_nodoLibre {k : ℕ} (h : nodoLibre m s = some k) :
    IsLeast {i | i < cantidadNodos ∧ s.tabla m i = none} k := by
  obtain ⟨hk, hborrado⟩ := nodoLibre_eq_some h
  refine ⟨⟨hk, tabla_eq_none.2 fun h => h.2 hborrado⟩, fun j hj => ?_⟩
  by_contra hlt
  rw [nodoLibre, List.find?_range_eq_some] at h
  have hvivo := h.2.2 j (not_le.1 hlt)
  refine tabla_eq_none.1 hj.2 ⟨hj.1, ?_⟩
  simpa using hvivo

/-- A creation that is served, from what its write section does. -/
theorem crea_of_eval (datos : Option (List UInt8)) (lleno : ℤ) (hs : Integro m s)
    {crear : List UInt8 → ℤ → Estado → Option (ℤ × Estado)}
    (hlleno : nodoLibre m s = none → ∀ nombre padre, crear nombre padre s = some (lleno, s))
    (hnuevo : ¬ NoCrea m s path → path.nombre.length ≤ 70 ∧
      ∀ (k q : ℕ) r, nodoLibre m s = some k → 0 ∉ path.nombre → q ≤ cantidadNodos →
        crear path.nombre q s = some r → r.1 = 0 ∧ Toca m k s r.2 ∧ SoloMemoria s r.2 ∧
          r.2.tabla m = (s.tabla m).put k ⟨q, path.nombre, datos⟩)
    (heval : (oNuevo m path crear).eval s = some (res, s')) :
    Efecto m s s' ∧ SoloMemoria s s' ∧
      Tabla.Crea (s.tabla m) path datos lleno res (s'.tabla m) := by
  have hnada := efecto_refl hs.toRepartido
  have hmisma := SoloMemoria.refl s
  rw [eval_oNuevo] at heval
  split_ifs at heval with hexiste
  · cases heval
    exact ⟨hnada, hmisma, .existe fun h => hexiste ((nodo_eq_none hs.fichas).1 h)⟩
  have hfalta : (s.tabla m).nodo path = none := (nodo_eq_none hs.fichas).2 (not_not.1 hexiste)
  obtain ⟨partes, hpartes, heval⟩ := Option.bind_eq_some_iff.1 heval
  obtain ⟨hnombre, hsin, hmadre⟩ := dividirRuta_partes hs.fichas hpartes
  rw [hnombre, hmadre] at heval
  cases hq : (s.tabla m).madre path with
  | none =>
      rw [hq, numero_none, if_pos (by decide)] at heval
      cases heval
      exact ⟨hnada, hmisma, .sinMadre hfalta hq⟩
  | some q =>
      rw [hq, numero_some] at heval hmadre
      rw [if_neg (by omega)] at heval
      have hresuelve : nodoDe m s partes.1 ≠ -1 := by omega
      cases hlibre : nodoLibre m s with
      | none =>
          rw [hlleno hlibre] at heval
          cases heval
          refine ⟨hnada, hmisma,
            .lleno hfalta (by rw [hq]; exact Option.some_ne_none q) fun i hi hno => ?_⟩
          refine nodoLibre_eq_none hlibre ⟨i, hi, ?_⟩
          by_contra hvivo
          exact tabla_eq_none.1 hno ⟨hi, hvivo⟩
      | some k =>
          have hcrea : ¬ NoCrea m s path := by
            rintro (h | ⟨partes', hpartes', h⟩ | h)
            · exact hexiste h
            · rw [hpartes, Option.some.injEq] at hpartes'
              exact hresuelve (hpartes' ▸ h)
            · rw [hlibre] at h
              cases h
          have hle : q ≤ cantidadNodos := by
            rcases nodoDe_cases m s partes.1 with heq | heq | ⟨j, hj, heq, -⟩ <;> omega
          obtain ⟨rfl, htoca, hmemoria, htabla⟩ :=
            (hnuevo hcrea).2 k q (res, s') hlibre hsin hle heval
          refine ⟨htoca.efecto, hmemoria, ?_⟩
          rw [htabla]
          exact .nace hfalta hq (isLeast_nodoLibre hlibre)

/-! ## Files -/

/-- A file of the table. -/
theorem exists_archivo (hs : Integro m s) (h : EsArchivo m s (nodoDe m s path.cola - 1)) :
    ∃ k : ℕ, nodoDe m s path.cola - 1 = k ∧ (s.tabla m).nodo path = some (k + 1) ∧
      s.tabla m k = some ⟨(s.padre m k).toNat, s.nombre m k, some (s.archivo m k)⟩ := by
  have hge := h.1
  have hpos : 0 < nodoDe m s path.cola := by omega
  obtain ⟨k, hk, heq, hnodo, hvivo⟩ := exists_nodo hs.fichas hpos
  have hi : nodoDe m s path.cola - 1 = k := by omega
  refine ⟨k, hi, hnodo, ?_⟩
  rw [exists_entrada hk hvivo, datos_of_archivo (hi ▸ h)]

/-- A write that goes to its places. -/
structure EscrituraSana (m : Montaje) (s : Estado) (i offset : ℤ) (buf : List UInt8) : Prop where
  archivo : EsArchivo m s i
  desde : 0 ≤ offset
  hasta : offset ≤ s.tamanio m i
  lugar : faltan m s i (offset + buf.length) ≤ (libres m s).length
  encaja : Encaja m s offset.toNat i buf.length

theorem escribe_of_eval (hm : Formateado m) (hs : Integro m s) {fuel ahora : ℕ} {offset : ℤ}
    {buf : List UInt8} (h : EscrituraSana m s (nodoDe m s path.cola - 1) offset buf)
    (heval : (oWrite m fuel ahora path offset buf).eval s = some (res, s')) :
    Efecto m s s' ∧ SoloMemoria s s' ∧ (s.vista m).Escribe path offset buf res (s'.tabla m) := by
  obtain ⟨off, rfl⟩ := Int.eq_ofNat_of_zero_le h.desde
  obtain ⟨k, hi, hnodo, hentrada⟩ := exists_archivo hs h.archivo
  have hencaja := h.encaja
  rw [eval_oWrite, hi] at heval
  rw [hi, Int.toNat_natCast] at hencaja
  obtain ⟨htoca, hmemoria, n, halcanza, htabla⟩ := toca_bucleWrite hm hs (hi ▸ h.archivo)
    (hi ▸ h.hasta) (hi ▸ h.lugar) hencaja heval
  have hlargo : (bloquesPara (s.archivo m k).length : ℤ) = bloquesDe (s.tamanio m k) := by
    rw [bloquesPara_eq, length_archivo]
  refine ⟨htoca.efecto, hmemoria, ?_⟩
  rcases halcanza with ⟨htodo, rfl, hcabe⟩ | ⟨hfalta, rfl, hcero, hfin⟩
  · rw [htabla, List.take_of_length_le htodo]
    exact .escribe hnodo hentrada rfl (hcabe.imp_right fun h => by rwa [hlargo])
  · have hn : n = (4096 * bloquesPara (s.archivo m k).length - (off : ℤ)).toNat := by
      rw [hlargo]
      omega
    rw [htabla, hn]
    exact .corta hnodo hentrada rfl hcero (by rw [hlargo]; omega)

/-- Another size that takes free blocks, or releases blocks where `eliminarNodos` finds them. -/
structure TruncadoSano (m : Montaje) (s : Estado) (i n : ℤ) : Prop where
  crece : s.tamanio m i < n → CreceSano m s i n
  corta : n ≤ s.tamanio m i → EsArchivo m s i → n < 2147483648 ∧ CorteSano m s i n
  suelta : n ≤ s.tamanio m i → ¬ EsArchivo m s i → SinPosiciones m s i

/-- The test of `darleEspacioNuevo` is that of the file system that a client sees. -/
theorem rechaza_vista_iff (m : Montaje) (s : Estado) (i n : ℤ) :
    (s.vista m).Rechaza (s.tamanio m i) n ↔ s.tamanio m i < n ∧ Rechaza m s i n := Iff.rfl

/-- The node gets another size, when that is not refused, and what a file gives back is counted. -/
theorem Redimensionado.trunca {k : ℕ} (h : Redimensionado m k n s s') (hk : k < cantidadNodos)
    (hvivo : s.estado m k ≠ borrado) (hn : 0 ≤ n) (hnodo : (s.tabla m).nodo path = some (k + 1))
    (hrechaza : s.tamanio m k < n → ¬ Rechaza m s k n)
    (harchivo : EsArchivo m s k → s'.bitmapFreeBlocks =
      s.bitmapFreeBlocks + (bloquesDe (s.tamanio m k) - bloquesDe n : ℕ))
    (hno : ¬ EsArchivo m s k → s'.bitmapFreeBlocks = s.bitmapFreeBlocks) :
    (s.vista m).Trunca path n 0 (s'.vista m) := by
  have hentrada := exists_entrada hk hvivo
  have hlargo := length_archivo m s k
  by_cases hi : EsArchivo m s k
  · obtain ⟨bytes, hbytes, htabla⟩ := h.1 hi
    have htrunca : (s.vista m).Trunca path n 0 _ :=
      .cambia hn hnodo hentrada (datos_of_archivo hi)
        (by rw [hlargo, rechaza_vista_iff]; exact fun h => hrechaza h.1 h.2) hbytes
    rw [bloquesPara_eq, bloquesPara_eq, hlargo, Int.toNat_of_nonneg hn] at htrunca
    have hvista : s'.vista m = ⟨(s.tabla m).setData k (some bytes),
        s.bitmapFreeBlocks + (bloquesDe (s.tamanio m k) - bloquesDe n : ℕ)⟩ := by
      rw [Estado.vista, htabla, harchivo hi]
    rw [hvista]
    exact htrunca
  · rw [vista_eq (hno hi), h.2 hi]
    exact .carpeta hn hnodo hentrada (datos_of_not hk hi)

theorem trunca_of_eval (hm : Formateado m) (hs : Integro m s) {fuel : ℕ}
    (h : n < 0 ∨ nodoDe m s path.cola = -1 ∨ 0 < nodoDe m s path.cola ∧
      TruncadoSano m s (nodoDe m s path.cola - 1) n)
    (heval : (oTruncate m fuel path n).eval s = some (res, s')) :
    Efecto m s s' ∧ (s.vista m).Trunca path n res (s'.vista m) := by
  have hnada := efecto_refl hs.toRepartido
  rw [eval_oTruncate] at heval
  split_ifs at heval with hno
  · cases heval
    refine ⟨hnada, ?_⟩
    rcases lt_or_ge n 0 with hneg | hpos
    · exact .invalido hneg
    · exact .falta hpos ((nodo_eq_none hs.fichas).2 (hno.resolve_left (not_lt.2 hpos)))
  rw [not_or, not_lt] at hno
  obtain ⟨hn, hresuelve⟩ := hno
  obtain ⟨hpos, hsano⟩ := (h.resolve_left (not_lt.2 hn)).resolve_left hresuelve
  obtain ⟨k, hk, heq, hnodo, hvivo⟩ := exists_nodo hs.fichas hpos
  have hi : nodoDe m s path.cola - 1 = k := by omega
  rw [hi] at hsano heval
  rw [eval_cambiarTamanio] at heval
  split_ifs at heval with hlt
  · obtain ⟨⟨res', t⟩, hdarle, hfin⟩ := Option.map_eq_some_iff.1 heval
    dsimp only at hfin
    rcases toca_darleEspacioNuevo hm hs hk hlt (hsano.crece hlt) hdarle with
      ⟨hrechaza, rfl, rfl⟩ | ⟨hrechaza, rfl, htoca, hmemoria, hcambia⟩
    · rw [if_pos (by decide), Prod.mk.injEq] at hfin
      obtain ⟨rfl, rfl⟩ := hfin
      refine ⟨hnada, .lleno hn hnodo (exists_entrada hk hvivo) (fun bytes hbytes => ?_)
        ((rechaza_vista_iff m t k n).2 ⟨hlt, hrechaza⟩)⟩
      rw [Estado.datos] at hbytes
      split_ifs at hbytes
      rw [← Option.some.inj hbytes, length_archivo]
    · rw [if_neg (not_not.2 rfl), Prod.mk.injEq] at hfin
      obtain ⟨rfl, rfl⟩ := hfin
      have hcontador : (t.ponerTamanio m k n).bitmapFreeBlocks = s.bitmapFreeBlocks :=
        hmemoria.contador
      refine ⟨htoca.efecto, hcambia.trunca hk hvivo hn hnodo (fun _ => hrechaza) (fun _ => ?_)
        fun _ => hcontador⟩
      rw [hcontador, Nat.sub_eq_zero_of_le (bloquesDe_mono hlt.le), Nat.cast_zero, add_zero]
  · obtain ⟨⟨_, t⟩, hborrar, hfin⟩ := Option.map_eq_some_iff.1 heval
    obtain ⟨rfl, rfl⟩ := Prod.mk.inj hfin
    have hle := not_lt.1 hlt
    by_cases harchivo : EsArchivo m s k
    · obtain ⟨hmax, hcorte⟩ := hsano.corta hle harchivo
      obtain ⟨htoca, hcambia, hcontador⟩ :=
        toca_eliminarNodos hm hs harchivo hn hle hmax hcorte hborrar
      exact ⟨htoca.efecto, hcambia.trunca hk hvivo hn hnodo (fun h => absurd h hlt)
        (fun _ => hcontador) fun hno => absurd harchivo hno⟩
    · obtain ⟨htoca, hcambia, rfl⟩ := toca_sinPosiciones hm hs hk harchivo
        (hsano.suelta hle harchivo) hborrar (n := n)
      exact ⟨htoca.efecto, hcambia.trunca hk hvivo hn hnodo (fun h => absurd h hlt)
        (fun hi => absurd hi harchivo) fun _ => rfl⟩

/-- A read from the beginning of a block, inside one, or over two that are next to each other, of
what is inside the mapping. -/
structure LeeSano (m : Montaje) (s : Estado) (i size offset : ℤ) : Prop where
  archivo : EsArchivo m s i
  pos : 0 < size
  size_lt : size < 2147483648
  desde : 0 ≤ offset
  offset_lt : offset < 2147483648
  sana : LecturaSana m s i size offset
  dentro : LecturaDentro m s i size offset

/-- The bytes of a file from an offset on, as many as there are. -/
theorem contenido_eq_take {i size offset : ℤ} (hpos : 0 < size) (hoffset : 0 ≤ offset) :
    s.contenido m i offset.toNat (aLeer m s i size offset).toNat =
      ((s.archivo m i).drop offset.toNat).take size.toNat := by
  have hnonneg := tamanio_nonneg m s i
  rw [Estado.archivo, aLeer]
  rcases le_or_gt offset (s.tamanio m i) with hle | hgt
  · have hsuma : (s.tamanio m i).toNat =
        offset.toNat + ((s.tamanio m i).toNat - offset.toNat) := by omega
    rw [hsuma, contenido_add, List.drop_left' (length_contenido _ _), Nat.zero_add]
    rcases le_total size (s.tamanio m i - offset) with hmenos | hmas
    · rw [take_contenido (by omega), min_eq_left (by omega)]
    · rw [List.take_of_length_le (by rw [length_contenido]; omega)]
      congr 1
      omega
  · rw [List.drop_of_length_le (by rw [length_contenido]; omega), List.take_nil,
      List.eq_nil_iff_length_eq_zero, length_contenido]
    omega

theorem lee_of_eval (hs : Integro m s) {size offset : ℤ} {bytes : List UInt8}
    (h : nodoDe m s path.cola = -1 ∨ LeeSano m s (nodoDe m s path.cola - 1) size offset)
    (heval : (oRead m path size offset).eval s = some ((res, bytes), s')) :
    s' = s ∧ Tabla.Lee (s.tabla m) path size offset res bytes := by
  rcases h with hfalta | h
  · have hnada : (oRead m path size offset).eval s = some ((-1, []), s) := by simp [oRead, hfalta]
    rw [hnada] at heval
    cases heval
    exact ⟨rfl, .falta ((nodo_eq_none hs.fichas).2 hfalta)⟩
  · have hpos := h.archivo.1
    obtain ⟨k, hi, hnodo, hentrada⟩ := exists_archivo hs h.archivo
    rw [eval_oRead (by omega), hi] at heval
    rw [hi] at h
    have hmapa := (hs.mapas k h.archivo).mono (le_max_right 1 (posiciones (s.tamanio m k)))
    have hlee := leerArchivo_of_sana hmapa.toMapa.tamanio_le h.pos h.size_lt h.desde h.offset_lt
      h.sana
    rw [hlee, Option.some.injEq, Prod.mk.injEq, Prod.mk.injEq] at heval
    obtain ⟨⟨rfl, rfl⟩, rfl⟩ := heval
    refine ⟨rfl, ?_⟩
    have hbytes := contenido_eq_take (m := m) (s := s) (i := k) h.pos h.desde
    have hlen : aLeer m s k size offset =
        (((s.archivo m k).drop offset.toNat).take size.toNat).length := by
      have hsize := h.pos
      rw [← hbytes, length_contenido, aLeer]
      omega
    have hlee : Tabla.Lee (s.tabla m) path size offset _ _ := .lee hnodo hentrada rfl
    rwa [← hlen, ← hbytes] at hlee

/-! ## Names -/

theorem mueve_of_eval (hm : Formateado m) (hs : Integro m s) {nuevo : Ruta}
    (h : nodoDe m s path.cola = -1 ∨ 0 < nodoDe m s path.cola ∧ nuevo.nombre.length ≤ 70 ∧
      ¬ SinDirectorio m s nuevo)
    (heval : (oRename m path nuevo).eval s = some (res, s')) :
    Efecto m s s' ∧ SoloMemoria s s' ∧
      Tabla.Mueve (s.tabla m) path nuevo res (s'.tabla m) := by
  rw [eval_oRename] at heval
  split_ifs at heval with hfalta
  · cases heval
    exact ⟨efecto_refl hs.toRepartido, .refl _, .falta ((nodo_eq_none hs.fichas).2 hfalta)⟩
  obtain ⟨hpos, hlargo, hmadre⟩ := h.resolve_left hfalta
  obtain ⟨k, hk, heq, hnodo, hvivo⟩ := exists_nodo hs.fichas hpos
  obtain ⟨partes, hpartes, hfin⟩ := Option.map_eq_some_iff.1 heval
  obtain ⟨hnombre, hsin, hq⟩ := dividirRuta_partes hs.fichas hpartes
  obtain ⟨rfl, rfl⟩ := Prod.mk.inj hfin
  cases hdestino : (s.tabla m).madre nuevo with
  | none =>
      rw [hdestino, numero_none] at hq
      exact absurd ⟨partes, hpartes, hq⟩ hmadre
  | some q =>
      rw [hdestino, numero_some] at hq
      have hle : q ≤ cantidadNodos := by
        rcases nodoDe_cases m s partes.1 with h | h | ⟨j, hj, h, -⟩ <;> omega
      obtain ⟨htoca, htabla⟩ := toca_renombrar hm hs hk hvivo hsin hlargo hle
      rw [heq, hq, hnombre]
      refine ⟨htoca.efecto, ⟨_, rfl⟩, ?_⟩
      rw [htabla]
      exact .mueve hnodo hdestino

/-! ## Removing -/

/-- The children of a node, on the disk and in the table. -/
theorem cuelga_iff {q i : ℕ} : Cuelga m s q i ↔ ∃ e, s.tabla m i = some e ∧ e.father = q := by
  constructor
  · rintro ⟨hi, hvivo, hpadre⟩
    refine ⟨_, exists_entrada hi hvivo, ?_⟩
    rw [hpadre]
    rfl
  · rintro ⟨e, he, rfl⟩
    obtain ⟨hi, hvivo, rfl⟩ := tabla_eq_some.1 he
    exact ⟨hi, hvivo, (Int.toNat_of_nonneg (load32_nonneg _ _)).symm⟩

theorem quita_of_eval (hs : Integro m s) {fuel : ℕ} (hnodo : nodoDe m s path.cola ≠ 0)
    (hsin : SinPosiciones m s (nodoDe m s path.cola - 1))
    (heval : (oUnlink m fuel path).eval s = some (res, s')) :
    Efecto m s s' ∧ Tabla.Quita (s.tabla m) path res (s'.tabla m) := by
  have hapagar : Retira m ∅ s { s with delMode := false } :=
    ⟨.refl ∅ s, fun _ hd => hd.elim, rfl⟩
  have hmisma : ({ s with delMode := false } : Estado).tabla m = s.tabla m := rfl
  cases fuel with
  | zero =>
      rw [eval_oUnlink_cero] at heval
      cases heval
  | succ fuel =>
      rw [eval_oUnlink hsin] at heval
      split_ifs at heval with hfalta
      · cases heval
        refine ⟨hapagar.efecto, ?_⟩
        rw [hmisma]
        exact .falta ((nodo_eq_none hs.fichas).2 hfalta)
      have hge := (nodoDe_bounds m s hfalta).1
      have hpos : 0 < nodoDe m s path.cola := by omega
      obtain ⟨k, hk, heq, hresuelve, -⟩ := exists_nodo hs.fichas hpos
      rw [heq, borrarSinHijos, unsigned_eq_self (by omega) (by rw [cantidadNodos] at hk; omega),
        add_sub_cancel_right] at heval
      split_ifs at heval with hhijos
      · cases heval
        refine ⟨hapagar.efecto, ?_⟩
        obtain ⟨j, hj, hhijo⟩ := List.any_eq_true.1 hhijos
        rw [Bool.and_eq_true, bne_iff_ne, beq_iff_eq] at hhijo
        obtain ⟨e, he, hpadre⟩ := (cuelga_iff (q := k + 1)).1
          ⟨List.mem_range.1 hj, hhijo.1, by rw [Nat.cast_succ]; exact hhijo.2⟩
        rw [hmisma]
        exact .conHijos hresuelve he hpadre
      · cases heval
        have hretira := retira_borrar (m := m) hk s
        refine ⟨hretira.efecto, ?_⟩
        rw [hretira.tabla_eq hs.toRepartido fun d hd => ?_]
        · refine .quita hresuelve fun j e he hpadre => hhijos ?_
          obtain ⟨hj, hvivo, hes⟩ := (cuelga_iff (q := k + 1)).2 ⟨e, he, hpadre⟩
          refine List.any_eq_true.2 ⟨j, List.mem_range.2 hj, ?_⟩
          rw [Bool.and_eq_true, bne_iff_ne, beq_iff_eq]
          exact ⟨hvivo, by rw [Nat.cast_succ] at hes; exact hes⟩
        · rw [Set.mem_singleton_iff.1 hd]
          exact estado_ponerEstado m _ _ _

theorem debajo_iff (hs : FichasSanas m s) {q i : ℕ} :
    Debajo m s q i ↔ (s.tabla m).Below (· = none) q i := by
  constructor
  · intro h
    induction h with
    | hijo hcuelga =>
        obtain ⟨e, he, hpadre⟩ := cuelga_iff.1 hcuelga
        exact .child he hpadre
    | @nieto j i hj hdir hcuelga ih =>
        have hcuelga' : Cuelga m s (j + 1 : ℕ) i := by exact_mod_cast hcuelga
        obtain ⟨e, he, hpadre⟩ := cuelga_iff.1 hcuelga'
        have hvivo : s.estado m j ≠ borrado := by
          rw [hdir]
          decide
        have hdatos : s.datos m j = none := by
          rw [Estado.datos, hdir, if_neg (by decide)]
        exact .step ih (exists_entrada hj.lt hvivo) hdatos he hpadre
  · intro h
    induction h with
    | child he hpadre => exact .hijo (cuelga_iff.2 ⟨_, he, hpadre⟩)
    | @step i j d e hj hd hdir he hpadre ih =>
        obtain ⟨hlt, hvivo, rfl⟩ := tabla_eq_some.1 hd
        have hcuelga := (cuelga_iff (q := j + 1)).2 ⟨_, he, hpadre⟩
        refine .nieto ih ?_ (by exact_mod_cast hcuelga)
        have htipo := (hs j (Int.natCast_nonneg j) (by rw [cantidadNodos] at hlt; omega) hvivo).tipo
        refine htipo.resolve_left fun hocupado => ?_
        rw [Estado.datos, if_pos hocupado] at hdir
        cases hdir

theorem poda_of_eval (hs : Integro m s) {fuel : ℕ}
    (h : nodoDe m s path.cola = -1 ∨ 0 < nodoDe m s path.cola ∧
      ∀ k ∈ ArchivosDebajo m s (nodoDe m s path.cola), SinPosiciones m s ((k : ℤ) - 1))
    (heval : (oRmdir m fuel path).eval s = some (res, s')) :
    Efecto m s s' ∧ Tabla.Poda (s.tabla m) path res (s'.tabla m) := by
  by_cases hfalta : nodoDe m s path.cola = -1
  · rw [eval_oRmdir, if_pos hfalta] at heval
    cases heval
    exact ⟨efecto_refl hs.toRepartido, .falta ((nodo_eq_none hs.fichas).2 hfalta)⟩
  · obtain ⟨hpos, hsin⟩ := h.resolve_left hfalta
    obtain ⟨k, hk, heq, hnodo, hvivo⟩ := exists_nodo hs.fichas hpos
    obtain ⟨hretira, hborra⟩ := retira_oRmdir hs.modo hpos hsin heval
    rw [eval_oRmdir, if_neg hfalta] at heval
    obtain ⟨r, -, hfin⟩ := Option.map_eq_some_iff.1 heval
    obtain ⟨rfl, -⟩ := Prod.mk.inj hfin
    have hsana : ∀ j < cantidadNodos, s.estado m j ≠ borrado → ArchivoOCarpeta m s j :=
      fun j hj hvivo => (hs.fichas j (Int.natCast_nonneg j)
        (by rw [cantidadNodos] at hj; omega) hvivo).tipo
    have hD : {j | Debajo m s (nodoDe m s path.cola) j ∨ (j : ℤ) = nodoDe m s path.cola - 1} =
        {j | (s.tabla m).Below (· = none) (k + 1) j ∨ j = k} := by
      ext j
      rw [Set.mem_ofPred_eq, Set.mem_ofPred_eq, heq, ← debajo_iff hs.fichas, Nat.cast_succ]
      refine or_congr_right ?_
      omega
    refine ⟨hretira.efecto, ?_⟩
    rw [hretira.tabla_eq hs.toRepartido fun j hj => hborra j hj ?_, hD]
    · exact .poda hnodo
    · rcases hj with hdebajo | hj
      · obtain ⟨hj, hvivo⟩ : j < cantidadNodos ∧ s.estado m j ≠ borrado := by
          cases hdebajo with
          | hijo hcuelga => exact ⟨hcuelga.1, hcuelga.2.1⟩
          | nieto _ _ hcuelga => exact ⟨hcuelga.1, hcuelga.2.1⟩
        exact hsana j hj hvivo
      · obtain rfl : j = k := by omega
        exact hsana j hk hvivo

/-! ## Queries -/

/-- The last name of the table is on the disk. -/
def NombresEnDisco (m : Montaje) : Prop := dirNombre m 1023 + 71 ≤ tamanioBloque * m.bloques

theorem nombreDeNodo_eq (hdisco : NombresEnDisco m) {i : ℕ} (hi : i < cantidadNodos)
    (h : FichaSana m s i) : nombreDeNodo m s i = s.nombre m i := by
  obtain ⟨k, hk, hcero⟩ := h.terminado
  have hsin : 0 ∉ s.nombre m i := nul_notMem_cadena s.mem 71 (dirNombre m i)
  have hes : isString s.mem (dirNombre m i) (s.nombre m i) = true := isString_cadena h.terminado
  have hlargo := isString_length_le hsin hes hcero
  have hnodo := nodo_eq m i
  have hultimo := nodo_eq m 1023
  rw [cantidadNodos] at hi
  rw [NombresEnDisco, dirNombre] at hdisco
  exact cadena_eq_of_isString hsin (by rw [dirNombre]; omega) hes

/-- What `o_readDir` puts in the message is what the table lists. -/
theorem directoriosPegoteados_eq_listado (hs : FichasSanas m s) (hdisco : NombresEnDisco m)
    {o : Option ℕ} (ho : ∀ q ∈ o, q ≤ cantidadNodos) :
    directoriosPegoteados m s (numero o) = (s.tabla m).listado o := by
  rw [directoriosPegoteados, Tabla.listado]
  refine List.flatMap_congr fun i hi => ?_
  have hi' := List.mem_range.1 hi
  congr 1
  by_cases hvivo : s.estado m i = borrado
  · rw [tabla_eq_none.2 fun h => h.2 hvivo, Option.elim_none, if_neg]
    rintro ⟨-, hestado | hestado⟩ <;> rw [hvivo] at hestado <;> cases hestado
  · have hsana := hs i (Int.natCast_nonneg i) (by rw [cantidadNodos] at hi'; omega) hvivo
    have hpadre := hsana.padre
    have hnonneg : 0 ≤ s.padre m i := load32_nonneg _ _
    have hiff : (unsigned (numero o) = s.padre m i ∧
        (s.estado m i = directorio ∨ s.estado m i = ocupado)) ↔ some (s.padre m i).toNat = o := by
      rw [and_iff_left hsana.tipo.symm]
      cases o with
      | none =>
          refine iff_of_false (fun heq => ?_) (Option.some_ne_none _)
          rw [← heq] at hpadre
          exact absurd hpadre (by decide)
      | some q =>
          have hq := ho q rfl
          rw [cantidadNodos] at hq
          rw [numero_some, unsigned_eq_self (by omega) (by omega), Option.some.injEq]
          omega
    rw [exists_entrada hi' hvivo, Option.elim_some, nombreDeNodo_eq hdisco hi' hsana]
    simp only [hiff]

theorem lista_of_eval (hs : FichasSanas m s) (hdisco : NombresEnDisco m) {basura : ℕ → UInt8}
    {enviados : List (List UInt8)}
    (heval : (oReadDir m basura path).eval s = some (enviados, s')) :
    s' = s ∧ (s.vista m).Paso basura (.readDir path, .mensajes enviados) (s.vista m) := by
  rw [eval_oReadDir] at heval
  obtain ⟨error, herror, heval⟩ := Option.bind_eq_some_iff.1 heval
  obtain ⟨mensaje, hmensaje, hfin⟩ := Option.map_eq_some_iff.1 heval
  obtain ⟨rfl, rfl⟩ := Prod.mk.inj hfin
  refine ⟨rfl, @Vista.Paso.readDir basura (s.vista m) path mensaje error ?_ ?_⟩
  · rw [Estado.vista]
    simpa only [nodo_eq_none hs] using herror
  · rw [Estado.vista]
    rw [← hmensaje, nodoDe_path hs, directoriosPegoteados_eq_listado hs hdisco fun q hq => ?_]
    have hnodo := nodoDe_path hs path
    rw [Option.mem_def.1 hq, numero_some] at hnodo
    exact le_of_numero hnodo

theorem nodoDe_pos (hcola : path.cola ≠ []) (hresuelve : nodoDe m s path.cola ≠ -1) :
    0 < nodoDe m s path.cola := by
  have hpartes := dividirRuta_of_ne_nil hcola
  rw [nodoDe_eq m s hpartes] at hresuelve ⊢
  rcases buscarNodo_eq_neg_one_or m s _ _ with h | ⟨i, -, h, -⟩
  · exact absurd h hresuelve
  · omega

theorem describe_of_eval (hs : FichasSanas m s) {basura : ℕ → UInt8} {ahora : ℕ}
    {enviados : List (List UInt8)}
    (heval : (oGetAttr m basura ahora path).eval s = some (enviados, s')) :
    s' = s ∧ (s.tabla m).Describe basura ahora path enviados := by
  rw [eval_oGetAttr] at heval
  obtain ⟨mensaje, hmensaje, hfin⟩ := Option.map_eq_some_iff.1 heval
  obtain ⟨rfl, rfl⟩ := Prod.mk.inj hfin
  refine ⟨rfl, ?_⟩
  split_ifs at hmensaje with hfalta hraiz
  · exact .falta ((nodo_eq_none hs).2 hfalta) hmensaje
  · refine .raiz ?_ hmensaje
    rw [Tabla.nodo, componentes, if_pos hraiz]
    rfl
  · obtain ⟨k, hk, heq, hnodo, hvivo⟩ := exists_nodo hs (nodoDe_pos hraiz hfalta)
    rw [heq, add_sub_cancel_right] at hmensaje
    refine .nodo hnodo (exists_entrada hk hvivo) ?_ ?_ hmensaje
    · rcases (hs k (Int.natCast_nonneg k) (by rw [cantidadNodos] at hk; omega) hvivo).tipo with
        hocupado | hdir
      · have hno : ocupado ≠ directorio := by decide
        have hnonneg := tamanio_nonneg m s k
        rw [Tabla.Atributos, Estado.datos, if_pos hocupado, Option.elim_some, atributos, hocupado,
          if_neg hno, if_pos rfl, Estado.archivo, length_contenido]
        exact ⟨rfl, rfl, (Int.toNat_of_nonneg hnonneg).symm⟩
      · have hno : directorio ≠ ocupado := by decide
        rw [Tabla.Atributos, Estado.datos, hdir, if_neg hno, Option.elim_none, atributos,
          if_pos hdir]
        exact ⟨rfl, rfl, rfl⟩
    · rw [atributos]
      split_ifs with hdir hocupado
      · rfl
      · rfl
      · rcases (hs k (Int.natCast_nonneg k) (by rw [cantidadNodos] at hk; omega) hvivo).tipo with
          h | h
        · exact absurd h hocupado
        · exact absurd h hdir

end Sac
