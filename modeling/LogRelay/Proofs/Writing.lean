import LogRelay.Proofs.Disk

/-!
# Writing whole files

What has been written to a path is what the path leads to afterwards, also where the file is new:
the way to it is the same as before (`Disk.Keeps.place`).  Apart from that file everything is as it
was (`Disk.Changed`).

`Disk.refusal?` is what the system refuses of writing to a path and setting the permissions of the
file.  Apart from that only the path or the text can rule it out (`Disk.putText_failure`).
-/

namespace LogRelay.Disk

variable {d d' d'' : Disk} {path t : Text} {bytes : Bytes} {way : List Text}
  {n mode : Nat} {f : Failure} {p : Place}

/-! ### Where a path leads -/

theorem leafAt_of_walk {links : Nat} {dir parts : List Text} (h : d.walk links dir parts = .ok p) :
    p.leaf = d.leafAt p.way := by
  fun_induction walk d links dir parts with
  | case1 | case5 | case8 =>
    obtain rfl := Except.ok.inj h
    simp [*]
  | case4 | case6 | case9 | case10 => cases h
  | case2 _ _ _ _ _ ih | case3 _ _ _ _ ih | case7 _ _ _ _ _ _ _ _ _ _ ih
  | case11 _ _ _ _ _ _ _ _ _ _ ih =>
    exact ih h

theorem leafAt_of_place (h : d.place path = .ok p) : p.leaf = d.leafAt p.way := by
  unfold place at h
  split at h
  · cases h
  · split at h
    · cases h
    · exact leafAt_of_walk h

/-- Every name stands for what it stood for, and a new one stands for a file. -/
structure Keeps (d d' : Disk) : Prop where
  kept {way : List Text} {leaf : Leaf} (h : d.leafAt way = some leaf) : d'.leafAt way = some leaf
  new {way : List Text} {leaf : Leaf} (h : d.leafAt way = none) (hnew : d'.leafAt way = some leaf) :
    ∃ n, leaf = .file n

namespace Keeps

theorem of_tree (h : d'.tree = d.tree) : d.Keeps d' := by
  have hleaf (way : List Text) : d'.leafAt way = d.leafAt way := by rw [leafAt, leafAt, h]
  constructor
  · intro way leaf hold
    rw [hleaf, hold]
  · intro way leaf hnone hnew
    rw [hleaf, hnone] at hnew
    cases hnew

theorem trans (h : d.Keeps d') (h' : d'.Keeps d'') : d.Keeps d'' := by
  constructor
  · exact fun hold => h'.kept (h.kept hold)
  · intro way leaf hnone hnew
    cases hbetween : d'.leafAt way with
    | none => exact h'.new hbetween hnew
    | some between =>
      obtain rfl : between = leaf := Option.some.inj ((h'.kept hbetween).symm.trans hnew)
      exact h.new hnone hbetween

/-- A path leads to where it led. -/
theorem walk (h : d.Keeps d') {links : Nat} {dir parts : List Text}
    (hold : d.walk links dir parts = .ok p) :
    d'.walk links dir parts = .ok ⟨p.way, d'.leafAt p.way⟩ := by
  fun_induction Disk.walk d links dir parts with
  | case1 =>
    obtain rfl := Except.ok.inj hold
    rw [Disk.walk]
  | case2 _ _ _ _ hempty ih =>
    rw [Disk.walk, if_pos hempty]
    exact ih hold
  | case3 _ _ _ hne ih =>
    rw [Disk.walk, if_neg hne, if_pos rfl]
    exact ih hold
  | case5 _ _ _ _ hname hup hshort here hnone hlast =>
    obtain rfl := Except.ok.inj hold
    rw [Disk.walk, if_neg hname, if_neg hup, if_neg hshort]
    dsimp only
    -- The place may have been empty, and then there may be a file now.
    cases hleaf : d'.leafAt here with
    | none => exact if_pos hlast
    | some leaf =>
      obtain ⟨n, rfl⟩ := h.new hnone hleaf
      exact if_pos hlast
  | case8 _ _ _ _ hname hup hshort _ _ hleaf hlast =>
    obtain rfl := Except.ok.inj hold
    rw [Disk.walk, if_neg hname, if_neg hup, if_neg hshort]
    dsimp only
    rw [h.kept hleaf]
    exact if_pos hlast
  | case7 _ _ _ _ hname hup hshort _ _ hleaf ih | case11 _ _ _ hname hup hshort _ _ hleaf _ ih =>
    rw [Disk.walk, if_neg hname, if_neg hup, if_neg hshort]
    dsimp only
    rw [h.kept hleaf]
    exact ih hold
  | case4 | case6 | case9 | case10 => cases hold

theorem place (h : d.Keeps d') (hold : d.place path = .ok p) :
    d'.place path = .ok ⟨p.way, d'.leafAt p.way⟩ := by
  unfold Disk.place at hold ⊢
  split at hold
  · cases hold
  · next hne =>
    split at hold
    · cases hold
    · next hshort =>
      rw [if_neg hne, if_neg hshort]
      exact h.walk hold

end Keeps

theorem openFile_of_leafAt (h : d.place path = .ok ⟨way, d.leafAt way⟩)
    (hfile : d.leafAt way = some (.file n)) : d.openFile path = .ok n := by
  unfold openFile
  rw [h, hfile]

theorem openFile_eq_ok (h : d.openFile path = .ok n) :
    ∃ way, d.place path = .ok ⟨way, d.leafAt way⟩ ∧ d.leafAt way = some (.file n) := by
  unfold openFile at h
  split at h
  · cases h
  · cases h
  · next way m hplace =>
    obtain rfl := Except.ok.inj h
    have hleaf := leafAt_of_place hplace
    exact ⟨way, by rw [hplace, ← hleaf], hleaf.symm⟩
  · cases h

theorem Keeps.openFile (h : d.Keeps d') (hold : d.openFile path = .ok n) :
    d'.openFile path = .ok n := by
  obtain ⟨way, hplace, hleaf⟩ := openFile_eq_ok hold
  exact openFile_of_leafAt (h.place hplace) (h.kept hleaf)

/-! ### One file changes -/

@[simp]
theorem file_setFile (d : Disk) (n : Nat) (data : FileData) (m : Nat) :
    (d.setFile n data).file m = if m = n then data else d.file m := by
  unfold file setFile
  by_cases h : m = n
  · subst h
    simp
  · rw [List.lookup_cons, beq_false_of_ne h, if_neg h]
    dsimp only
    rw [lookup_filter_of_imp fun v _ hv => by simpa [hv] using h]

/-- The path leads to a file of that kind, and apart from that file everything is as it was. -/
structure Changed (d : Disk) (path : Text) (kind : FileData → Prop) (after : Disk) : Prop where
  keeps : d.Keeps after
  file : ∃ n, after.openFile path = .ok n ∧ kind (after.file n) ∧ ∀ m, m ≠ n →
    after.file m = d.file m
  refusals : after.refusals = d.refusals

variable {kind kind' : FileData → Prop}

theorem Changed.trans (h : d.Changed path kind d') (h' : d'.Changed path kind' d'') :
    d.Changed path kind' d'' := by
  obtain ⟨n, hopen, -, hothers⟩ := h.file
  obtain ⟨n', hopen', hkind, hothers'⟩ := h'.file
  obtain rfl : n' = n := Except.ok.inj (hopen'.symm.trans (h'.keeps.openFile hopen))
  refine ⟨h.keeps.trans h'.keeps, ⟨n', hopen', hkind, fun m hm => ?_⟩, h'.refusals.trans h.refusals⟩
  rw [hothers' m hm, hothers m hm]

theorem leafAt_create (hway : way ≠ []) (bytes : Bytes) (w : List Text) :
    (d.create way bytes).leafAt w = if w = way then some (.file d.next) else d.leafAt w := by
  unfold create leafAt setLeaf setFile
  dsimp only
  by_cases hw : w = way
  · subst hw
    simp [hway]
  · rw [if_neg hw]
    split
    · rfl
    · rw [List.lookup_cons, beq_false_of_ne hw]
      dsimp only
      exact lookup_filter_of_imp fun v _ hv => by simpa [hv] using hw

theorem changed_create (hplace : d.place path = .ok ⟨way, none⟩) :
    d.Changed path (fun f => f.bytes = bytes) (d.create way bytes) := by
  have hnone : d.leafAt way = none := (leafAt_of_place hplace).symm
  have hway : way ≠ [] := by
    rintro rfl
    cases hnone
  have hnew : (d.create way bytes).leafAt way = some (.file d.next) := by simp [leafAt_create hway]
  have hkeeps : d.Keeps (d.create way bytes) := by
    constructor
    · intro w leaf hold
      have hne : w ≠ way := by
        rintro rfl
        simp [hnone] at hold
      rw [leafAt_create hway, if_neg hne, hold]
    · intro w leaf hold hleaf
      rw [leafAt_create hway, hold] at hleaf
      split at hleaf
      · exact ⟨_, (Option.some.inj hleaf).symm⟩
      · cases hleaf
  have hfile (m : Nat) : (d.create way bytes).file m =
      (d.setFile d.next ⟨bytes, d.next + 1, 0o644⟩).file m := rfl
  refine ⟨hkeeps, ⟨d.next, openFile_of_leafAt (hkeeps.place hplace) hnew, ?_, fun m hm => ?_⟩, rfl⟩
  · simp [hfile]
  · simp [hfile, hm]

theorem changed_setFile (hopen : d.openFile path = .ok n) {data : FileData}
    (hkind : kind data) (next : Nat) : d.Changed path kind { d.setFile n data with next } := by
  have hkeeps : d.Keeps { d.setFile n data with next } := .of_tree rfl
  have hfile (m : Nat) : Disk.file { d.setFile n data with next } m = (d.setFile n data).file m :=
    rfl
  refine ⟨hkeeps, ⟨n, hkeeps.openFile hopen, ?_, fun m hm => ?_⟩, rfl⟩
  · simpa [hfile] using hkind
  · simp [hfile, hm]

theorem changed_write (h : d.write path bytes = .ok d') :
    d.Changed path (fun f => f.bytes = bytes) d' := by
  unfold write at h
  split at h
  · cases h
  · next hplace =>
    obtain rfl := Except.ok.inj h
    exact changed_create hplace
  · next n hplace =>
    obtain rfl := Except.ok.inj h
    have hopen : d.openFile path = .ok n := by
      unfold openFile
      rw [hplace]
    refine changed_setFile hopen ?_ _
    rfl
  · cases h

theorem write_of_openFile (h : d.openFile path = .ok n) (bytes : Bytes) :
    d.write path bytes = .ok (d.overwrite n bytes) := by
  obtain ⟨way, hplace, hleaf⟩ := openFile_eq_ok h
  unfold write
  rw [hplace, hleaf]

theorem changed_setMode (h : d.openFile path = .ok n) (hkind : kind { d.file n with mode }) :
    d.Changed path kind (d.setMode path mode) := by
  unfold setMode
  rw [h]
  exact changed_setFile h hkind d.next

/-! ### Writing texts -/

theorem changed_openEmptied (h : d.openEmptied path = .ok d') :
    d.Changed path (fun f => f.bytes = []) d' := by
  unfold openEmptied at h
  split at h
  · cases h
  · cases h
  · next hwrite =>
    obtain rfl := Except.ok.inj h
    exact changed_write hwrite

/-- What the system refuses of writing to a path and setting the permissions of the file. -/
def refusal? (d : Disk) (path : Text) : Option IoError :=
  match d.openEmptied path with
  | .error e => some e
  | .ok _ => ((d.refusals path).writing.map Prod.snd).or (d.refusals path).permissions

/-- What is there after octets have been put to a path.  Nothing has changed if the file cannot be
opened.  Else the path leads to as much of them as can be written, and if nothing is refused, the
file has the permissions. -/
def Put (d : Disk) (path : Text) (bytes : Bytes) (mode : Nat) (after : Disk) : Prop :=
  match d.openEmptied path with
  | .error _ => after = d
  | .ok _ =>
    d.Changed path (fun f => f.bytes = d.writable path bytes ∧
      (d.refusal? path = none → f.mode = mode)) after

theorem Changed.mono (h : d.Changed path kind d') (hkind : ∀ f, kind f → kind' f) :
    d.Changed path kind' d' := by
  obtain ⟨n, hopen, hn, hothers⟩ := h.file
  exact ⟨h.keeps, ⟨n, hopen, hkind _ hn, hothers⟩, h.refusals⟩

theorem Changed.setMode {octets : Bytes}
    (h : d.Changed path (fun f => f.bytes = octets) d') (mode : Nat) :
    d.Changed path (fun f => f.bytes = octets ∧ f.mode = mode) (d'.setMode path mode) := by
  obtain ⟨n, hopen, hn, -⟩ := h.file
  refine h.trans (changed_setMode hopen ?_)
  exact ⟨hn, rfl⟩

theorem writeOn_spec (h : d.openFile path = .ok n) (bytes : Bytes) :
    (d.writeOn path bytes).2 = (d.refusals path).writing.map (fun r => .io r.2) ∧
      d.Changed path (fun f => f.bytes = d.writable path bytes) (d.writeOn path bytes).1 := by
  have hwrite := write_of_openFile h (d.writable path bytes)
  unfold writeOn
  rw [hwrite]
  exact ⟨rfl, changed_write hwrite⟩

theorem writeText_of_unnameable {why : Unnameable} (h : unnameable? path = some why) (t : Text) :
    d.writeText path t = (d, some why.failure) := by
  unfold writeText
  rw [h]

theorem writeText_of_unopened {e : IoError} (hpath : unnameable? path = none)
    (h : d.openEmptied path = .error e) (t : Text) : d.writeText path t = (d, some (.io e)) := by
  unfold writeText
  rw [hpath, h]

theorem writeText_of_unencodable {e : Utf8.EncodeError} (hpath : unnameable? path = none)
    (hopen : d.openEmptied path = .ok d') (h : Utf8.encode t = .error e) :
    d.writeText path t = (d', some (.unencodable e)) := by
  unfold writeText
  rw [hpath, hopen]
  dsimp only
  rw [h]

theorem writeText_of_encode (hpath : unnameable? path = none) (hopen : d.openEmptied path = .ok d')
    (h : Utf8.encode t = .ok bytes) :
    (d.writeText path t).2 = (d.refusals path).writing.map (fun r => .io r.2) ∧
      d.Changed path (fun f => f.bytes = d.writable path bytes) (d.writeText path t).1 := by
  have hemptied := changed_openEmptied hopen
  obtain ⟨n, hn, -, -⟩ := hemptied.file
  obtain ⟨hfailure, hchanged⟩ := writeOn_spec hn bytes
  unfold writeText
  rw [hpath, hopen]
  dsimp only
  rw [h]
  rw [hemptied.refusals] at hfailure
  rw [writable, hemptied.refusals] at hchanged
  exact ⟨hfailure, hemptied.trans hchanged⟩

/-- If the text is not written, the permissions are not set either. -/
theorem putText_of_failure (h : d.writeText path t = (d', some f)) (mode : Nat) :
    d.putText path t mode = (d', some f) := by
  unfold putText
  rw [h]

/-- A text that can be encoded is put to a path that can be named, as far as the system does not
refuse it. -/
theorem putText_of_encode (hpath : unnameable? path = none)
    (h : Utf8.encode t = .ok bytes) (mode : Nat) :
    (d.putText path t mode).2 = (d.refusal? path).map .io ∧
    d.Put path bytes mode (d.putText path t mode).1 := by
  unfold Put refusal?
  cases hopen : d.openEmptied path with
  | error e =>
    rw [putText_of_failure (writeText_of_unopened hpath hopen t)]
    exact ⟨rfl, rfl⟩
  | ok emptied =>
    obtain ⟨hfailure, hchanged⟩ := writeText_of_encode hpath hopen h
    unfold putText
    generalize d.writeText path t = written at hfailure hchanged
    obtain ⟨after, failure⟩ := written
    dsimp only at hfailure hchanged ⊢
    cases hwriting : (d.refusals path).writing with
    | some refusal =>
      rw [hwriting] at hfailure
      subst hfailure
      exact ⟨rfl, hchanged.mono fun f hf => ⟨hf, nofun⟩⟩
    | none =>
      rw [hwriting] at hfailure
      subst hfailure
      simp only [Option.map_none, Option.none_or, hchanged.refusals]
      cases hpermissions : (d.refusals path).permissions with
      | some e => exact ⟨rfl, hchanged.mono fun f hf => ⟨hf, nofun⟩⟩
      | none => exact ⟨rfl, (hchanged.setMode mode).mono fun f hf => ⟨hf.1, fun _ => hf.2⟩⟩

/-- Putting a text is refused by the system, or the path or the text rules it out. -/
theorem putText_failure (h : (d.putText path t mode).2 = some f) :
    (∃ e, f = .io e) ∨ (∃ why, unnameable? path = some why ∧ f = why.failure) ∨
      ∃ e, Utf8.encode t = .error e ∧ f = .unencodable e := by
  cases hpath : unnameable? path with
  | some why =>
    rw [putText_of_failure (writeText_of_unnameable hpath t)] at h
    exact .inr (.inl ⟨why, rfl, (Option.some.inj h).symm⟩)
  | none =>
    cases htext : Utf8.encode t with
    | ok bytes =>
      rw [(putText_of_encode hpath htext mode).1] at h
      obtain ⟨e, -, rfl⟩ := Option.map_eq_some_iff.1 h
      exact .inl ⟨e, rfl⟩
    | error e =>
      cases hopen : d.openEmptied path with
      | error refusal =>
        rw [putText_of_failure (writeText_of_unopened hpath hopen t)] at h
        exact .inl ⟨refusal, (Option.some.inj h).symm⟩
      | ok emptied =>
        rw [putText_of_failure (writeText_of_unencodable hpath hopen htext)] at h
        exact .inr (.inr ⟨e, rfl, (Option.some.inj h).symm⟩)

end LogRelay.Disk
