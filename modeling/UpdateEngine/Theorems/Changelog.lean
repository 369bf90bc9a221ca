import UpdateEngine.Firmware.Description
import UpdateEngine.Lemmas.TextAux
import UpdateEngine.Firmware.Lives

/-!
# The descriptions of a version

The analyser saves every entry of `descriptInfo` in the changelog file of the last component, each over the one before. What a client
is shown afterwards is therefore the description of the last entry for the components with the last component's id, and whatever an
earlier response left for all others.
-/

namespace UpdateEngine

open Concurrent FirmwareCheckAnalyzeUtils UpdateServiceImplFirmware
open Ipc (ComponentDescription)

/-! ## What a client is to be shown -/

/-- One operation of a thread while no other one is at work, the environment answering each operation in its way. -/
def Thread.answered (n : Thread) (answers : Op → Answer) (o : Op) (s : State) : Option (o.Res × State) := exec n o (answers o) s

/-- The entries of `descriptInfo`. -/
def descriptInfos (root : Json) : List Json := ((root.find "descriptInfo").map Json.items).getD []

/-- The description an entry gives a component: the type, and the content with the placeholder of the quotes replaced and the block
of the other language removed. -/
def ownDescription (P : Platform) (language : String) (component : FirmwareComponent) (descriptInfo : Json) : ComponentDescription where
  componentId := component.componentId
  descriptionInfo := {
    descriptionType := (JsonUtils.getInt descriptInfo "descriptionType" P.indeterminate).2
    content := getChangelogContent
      (StringUtils.replaceStringAll (JsonUtils.getString descriptInfo "content" "").2 "quota" "\"") language }

/-- The last entry that could be saved under the id of a component. -/
def lastSaved (P : Platform) (answers : Op → Answer) (componentId : String) (entries : List Json) : Option Json :=
  (entries.filter fun e =>
    answers (.saveDataToFile (changelogFilePath componentId) (analyzeDescriptInfo P e).2) = .bool true).getLast?

/-- The id of the last component. -/
def lastId (components : List FirmwareComponent) : String := (components.getLast?.map (·.descriptPackageId)).getD ""

/-- What a component is described by is what its own entry gives it: the last entry that could be saved describes it alike, when it
has the last component's id and there is one; otherwise its file described it alike before. -/
def DescribedAlike (P : Platform) (answers : Op → Answer) (language : String) (files : String → Option Bytes)
    (components : List FirmwareComponent) (entries : List Json) (c : FirmwareComponent) (e : Json) : Prop :=
  match if c.componentId = lastId components then lastSaved P answers (lastId components) entries else none with
  | some saved => ownDescription P language c saved = ownDescription P language c e
  | none => (files (changelogFilePath c.componentId)).map (fun w => describe c.componentId (textOf w) language) =
      some (ownDescription P language c e)

namespace ChangelogAux

variable {P : Platform} {n : Thread} {answers : Op → Answer} {s : State} {language : String}

/-! ## What is written -/

/-- The number and the content of a changelog are split where they were joined. -/
theorem splitChangelog_join (z : Int) (content : String) :
    splitChangelog (toString z ++ "|" ++ content) = (toString z, content) := by
  have hlist : (toString z ++ "|" ++ content).toList = (toString z).toList ++ '|' :: content.toList := by
    rw [String.toList_append, String.toList_append, List.append_assoc]
    rfl
  have hplain : ∀ c ∈ (toString z).toList, (decide (c ≠ '|')) = true := by
    intro c hc
    rw [decide_eq_true_eq]
    rintro rfl
    exact TextAux.separator_not_mem z hc
  unfold splitChangelog
  rw [hlist, if_pos (by simp), List.takeWhile_append_of_pos hplain, List.dropWhile_append_of_pos hplain]
  simp

/-- An entry that is saved describes a component as the entry says. -/
theorem describe_saved (component : FirmwareComponent) (e : Json) :
    describe component.componentId (analyzeDescriptInfo P e).2 language = ownDescription P language component e := by
  unfold describe analyzeDescriptInfo ownDescription
  dsimp only
  rw [splitChangelog_join, TextAux.atoi_toString, Int32.ofInt_toInt]

/-- What a row of saves in one file leaves: the last one that succeeded in that file, and every other file as it was. -/
theorem saves_inv {path : String} (l : List (Nat × String)) {Q : Unit → State → Prop}
    (h : Prog.Ends (n.answered answers) (l.forM fun info => do let _ ← call (.saveDataToFile path info.2)) s Q) :
    ∃ s', Q () s' ∧ (∀ q, q ≠ path → s'.files q = s.files q) ∧
      s'.files path = (((l.filter fun info => answers (.saveDataToFile path info.2) = .bool true).getLast?).map
        fun info => info.2.toUTF8.toList).or (s.files path) := by
  induction l generalizing s with
  | nil => exact ⟨s, h, fun _ _ => rfl, rfl⟩
  | cons info l ih =>
    obtain ⟨x, s₁, hx, h⟩ := Prog.ends_bind.mp h
    obtain ⟨-, hanswer, rfl⟩ := exec_eq_some hx
    obtain ⟨s', hQ, hothers, hpath⟩ := ih h
    have hbool : answers (.saveDataToFile path info.2) = .bool x := by
      simp only [Op.answer] at hanswer
      split at hanswer
      · rename_i b hb
        rw [hb, Option.some.inj hanswer]
      · exact absurd hanswer (by simp)
    have hfiles : (Op.after n s (.saveDataToFile path info.2) x).files =
        if x then Function.update s.files path (some info.2.toUTF8.toList) else s.files := by
      simp only [Op.after, Op.effect]
      split <;> rfl
    refine ⟨s', hQ, ?_, ?_⟩
    · intro q hq
      rw [hothers q hq, hfiles]
      split
      · exact Function.update_of_ne hq ..
      · rfl
    · rw [hpath, hfiles]
      cases x with
      | false =>
        rw [List.filter_cons_of_neg (by simp [hbool])]
        rfl
      | true =>
        rw [List.filter_cons_of_pos (by simp [hbool]), List.getLast?_cons]
        simp only [if_true, Function.update_self]
        cases (l.filter fun info => answers (.saveDataToFile path info.2) = .bool true).getLast? with
        | none => rfl
        | some last => rfl

/-- The changelog files after a response that was accepted. -/
theorem files_of_accepted {response : String} {root : Json} {components : List FirmwareComponent} {t : State}
    (hroot : JsonUtils.parseAndGetJsonObject P response = some root) (hne : components ≠ [])
    (h : (doAnalyze P response).Ends (n.answered answers) s fun l s' => l = components ∧ s' = t) :
    (∀ q, q ≠ changelogFilePath (lastId components) → t.files q = s.files q) ∧
      t.files (changelogFilePath (lastId components)) =
        ((lastSaved P answers (lastId components) (descriptInfos root)).map fun e => (analyzeDescriptInfo P e).2.toUTF8.toList).or
          (s.files (changelogFilePath (lastId components))) := by
  unfold doAnalyze at h
  rw [hroot] at h
  dsimp only at h
  split at h
  · exact absurd h.1.symm hne
  · split at h
    · cases hbl : analyzeBlVersionCheckResults root with
      | none =>
        rw [hbl] at h
        obtain ⟨-, -, -, hnil, -⟩ := h
        exact absurd hnil.symm hne
      | some ret =>
        rw [hbl] at h
        have h := Prog.ends_bind.mp h
        unfold analyzeComponents at h
        split at h
        · obtain ⟨hnil, -⟩ := h
          exact absurd (by simpa using hnil.symm) hne
        · dsimp only at h
          split at h
          · obtain ⟨hnil, -⟩ := h
            refine absurd ?_ hne
            rw [← hnil, if_neg]
            show ¬ ret + 2 = 0
            omega
          · rename_i checkResults _ _ entries hentries
            obtain ⟨s', hQ, hothers, hpath⟩ := saves_inv _ (Prog.ends_bind.mp h)
            obtain ⟨hl, rfl⟩ := hQ
            have hcomponents : (checkResults.items.map (analyzeComponent P)).map Prod.snd = components := by
              split at hl
              · exact hl
              · exact absurd hl.symm hne
            rw [hcomponents] at hothers hpath
            have hinfos : (descriptInfos root).map (analyzeDescriptInfo P) = entries.items.map (analyzeDescriptInfo P) := by
              unfold descriptInfos
              rw [hentries]
              rfl
            refine ⟨hothers, ?_⟩
            rw [← hinfos, List.filter_map, List.getLast?_map, Option.map_map] at hpath
            exact hpath
    · exact absurd h.1.symm hne

/-! ## What is read back -/

/-- The descriptions the files give, up to the first component without a file, and whether there is none. -/
def shown (language : String) (files : String → Option Bytes) : List FirmwareComponent → Bool × List ComponentDescription
  | [] => (true, [])
  | c :: l => match files (changelogFilePath c.componentId) with
    | none => (false, [])
    | some w => ((shown language files l).1, describe c.componentId (textOf w) language :: (shown language files l).2)

/-- Reading the files changes none of them. -/
theorem describeComponents_ends (m : Thread) {t : State} (ht : t.stopped = false) (components : List FirmwareComponent) :
    (describeComponents language components).Ends (m.answered answers) t fun r t' =>
      r = shown language t.files components ∧ t'.stopped = false := by
  have hread {β : Type} {t : State} (ht : t.stopped = false) (path : String) {f : Option Bytes → Prog β} {Q : β → State → Prop}
      (h : ∀ t', t'.stopped = false → t'.files = t.files → (f (t.files path)).Ends (m.answered answers) t' Q) :
      (call (.readFile path) >>= f).Ends (m.answered answers) t Q := by
    refine ⟨t.files path, Op.after m t (.readFile path) (t.files path), ?_, h _ ht rfl⟩
    simp [Thread.answered, exec, ht, Op.answer]
  induction components generalizing t with
  | nil => exact ⟨rfl, ht⟩
  | cons c l ih =>
    unfold describeComponents shown FileUtils.isFileExist FileUtils.readDataFromFile
    simp only [bind_assoc, pure_bind]
    refine hread ht _ ?_
    intro t₁ ht₁ hfiles₁
    cases hfile : t.files (changelogFilePath c.componentId) with
    | none => exact ⟨rfl, ht₁⟩
    | some w =>
      refine hread ht₁ _ ?_
      intro t₂ ht₂ hfiles₂
      rw [hfiles₁, hfile]
      refine Prog.Ends.seq (ih ht₂) ?_
      rintro r t₃ ⟨rfl, ht₃⟩
      rw [hfiles₂, hfiles₁]
      exact ⟨rfl, ht₃⟩

/-- The descriptions are complete and the entries' own exactly when each file gives its component what its entry gives it. -/
theorem shown_eq_iff {files : String → Option Bytes} {components : List FirmwareComponent} {entries : List Json}
    (hlen : entries.length = components.length) :
    shown language files components = (true, List.zipWith (ownDescription P language) components entries) ↔
      ∀ (i : Nat) c e, components[i]? = some c → entries[i]? = some e →
        (files (changelogFilePath c.componentId)).map (fun w => describe c.componentId (textOf w) language) =
          some (ownDescription P language c e) := by
  induction components generalizing entries with
  | nil => simp [shown]
  | cons c l ih =>
    cases entries with
    | nil => simp at hlen
    | cons e entries =>
      have ih := @ih entries (by simpa using hlen)
      unfold shown
      constructor
      · intro h i c' e' hc he
        cases hfile : files (changelogFilePath c.componentId) with
        | none =>
          rw [hfile] at h
          exact absurd (Prod.mk.inj h).1 (by simp)
        | some w =>
          rw [hfile] at h
          obtain ⟨hfinished, hrest⟩ := Prod.mk.inj h
          obtain ⟨hfirst, hrest⟩ := List.cons.inj hrest
          cases i with
          | zero =>
            rw [List.getElem?_cons_zero, Option.some.injEq] at hc he
            rw [← hc, ← he, hfile, Option.map_some, hfirst]
          | succ i => exact ih.mp (Prod.ext hfinished hrest) i c' e' hc he
      · intro h
        have hrest := ih.mpr fun i c' e' hc he => h (i + 1) c' e' hc he
        have hfirst := h 0 c e rfl rfl
        obtain ⟨w, hw, hdescribed⟩ := Option.map_eq_some_iff.mp hfirst
        rw [hw]
        dsimp only
        rw [hrest, hdescribed]
        rfl

/-- What is shown depends on the ids only. -/
theorem shown_buildComponentSPath (files : String → Option Bytes) (components : List FirmwareComponent) :
    shown language files (components.map FirmwareCheckDataProcessor.buildComponentSPath) = shown language files components := by
  induction components with
  | nil => rfl
  | cons c l ih =>
    rw [List.map_cons]
    unfold shown
    rw [ih]
    rfl

/-- The request is answered with what the files give, and fails exactly when a file is missing. -/
theorem getNewVersionDescription_ends (m : Thread) {t : State} (ht : t.stopped = false) {components : List FirmwareComponent}
    (hne : components ≠ []) (hstored : t.components = components.map FirmwareCheckDataProcessor.buildComponentSPath) :
    (getNewVersionDescription language).Ends (m.answered answers) t fun r _ =>
      (r.1.errorNum = .success ↔ (shown language t.files components).1 = true) ∧ r.2 = (shown language t.files components).2 := by
  refine ⟨t.components, Op.after m t (.queryComponents .getNewVersionDescription) t.components, ?_, ?_⟩
  · simp [Thread.answered, exec, ht, Op.answer]
  · have hrows : t.components.isEmpty = false := by simp [hstored, hne]
    dsimp only [Prog.bind]
    rw [if_neg (by simp [hrows])]
    have ht' : (Op.after m t (.queryComponents .getNewVersionDescription) t.components).stopped = false := ht
    refine Prog.Ends.seq (describeComponents_ends m ht' t.components) ?_
    rintro r t' ⟨rfl, -⟩
    have hshown : shown language (Op.after m t (.queryComponents .getNewVersionDescription) t.components).files t.components =
        shown language t.files components := by
      rw [hstored]
      exact shown_buildComponentSPath t.files components
    rw [hshown]
    cases hfinished : (shown language t.files components).1 with
    | true => exact ⟨by simp [BusinessError.build], rfl⟩
    | false => exact ⟨by simp [BusinessError.build], rfl⟩

/-- Two components have the same changelog file exactly when they have the same id. -/
theorem changelogFilePath_inj {id id' : String} : changelogFilePath id = changelogFilePath id' ↔ id = id' := by
  unfold changelogFilePath
  rw [← String.toList_inj]
  simp only [String.toList_append, List.append_cancel_right_eq, List.append_cancel_left_eq, String.toList_inj]

/-- A component is described alike exactly when its file, after the response was accepted, gives it what its entry gives it. -/
theorem describedAlike_iff {components : List FirmwareComponent} {entries : List Json} {files : String → Option Bytes}
    (hothers : ∀ q, q ≠ changelogFilePath (lastId components) → files q = s.files q)
    (hlast : files (changelogFilePath (lastId components)) =
      ((lastSaved P answers (lastId components) entries).map fun e => (analyzeDescriptInfo P e).2.toUTF8.toList).or
        (s.files (changelogFilePath (lastId components)))) (c : FirmwareComponent) (e : Json) :
    DescribedAlike P answers language s.files components entries c e ↔
      (files (changelogFilePath c.componentId)).map (fun w => describe c.componentId (textOf w) language) =
        some (ownDescription P language c e) := by
  unfold DescribedAlike
  by_cases hid : c.componentId = lastId components
  · rw [if_pos hid, hid, hlast]
    cases lastSaved P answers (lastId components) entries with
    | none => rfl
    | some saved =>
      rw [Option.map_some, Option.some_or, Option.map_some, Option.some.injEq, TextAux.textOf_toUTF8, ← hid, describe_saved]
  · rw [if_neg hid, hothers _ (fun hpath => hid (changelogFilePath_inj.mp hpath))]

end ChangelogAux

open ChangelogAux

/-- After a response with a description for each component was accepted and its version stored, a client that asks for the
descriptions is given each component's own one: exactly when each component is described alike by what its changelog file comes to
hold, the last entry that could be saved for the components with the last one's id, and what it held before for the others. -/
theorem changelogs_faithful_iff (P : Platform) {response : String} {root : Json} {components : List FirmwareComponent} {n m : Thread}
    {answers answers' : Op → Answer} {s s' t : State} (hroot : JsonUtils.parseAndGetJsonObject P response = some root)
    (hne : components ≠ []) (hlen : (descriptInfos root).length = components.length)
    (hrun : (doAnalyze P response).run (n.answered answers) s = (some components, s'))
    (hstored : t.components = components.map FirmwareCheckDataProcessor.buildComponentSPath) (hfiles : t.files = s'.files)
    (ht : t.stopped = false) (language : String) :
    (getNewVersionDescription language).Ends (m.answered answers') t (fun r _ => r.1.errorNum = .success ∧
        r.2 = List.zipWith (ownDescription P language) components (descriptInfos root)) ↔
      ∀ (i : Nat) c e, components[i]? = some c → (descriptInfos root)[i]? = some e →
        DescribedAlike P answers language s.files components (descriptInfos root) c e := by
  obtain ⟨hothers, hlast⟩ := files_of_accepted hroot hne (Prog.ends_iff_run.mpr ⟨components, s', hrun, rfl, rfl⟩)
  rw [← hfiles] at hothers hlast
  simp only [describedAlike_iff hothers hlast]
  rw [← shown_eq_iff hlen]
  refine (getNewVersionDescription_ends m ht hne hstored).iff_of ?_
  rintro r - ⟨hfinished, hdescriptions⟩
  constructor
  · rintro ⟨hsuccess, hr⟩
    exact Prod.ext (hfinished.mp hsuccess) (hdescriptions.symm.trans hr)
  · intro h
    rw [h] at hfinished hdescriptions
    exact ⟨hfinished.mpr rfl, hdescriptions⟩

/-! ## Versions of one and of two packages -/

/-- An entry of `checkResults` and an entry of `descriptInfo`. -/
def checkResultJson (id : String) : Json := .obj [("descriptPackageId", .str id), ("packageType", .num 1), ("versionName", .str "2.0"),
  ("versionCode", .str "2.0"), ("url", .str "server/package"), ("size", .num 1), ("verifyInfo", .str "")]

def descriptInfoJson (content : String) : Json := .obj [("descriptionType", .num 1), ("content", .str content)]

/-- What such an entry is read as. -/
def describedPackage (id : String) : FirmwareComponent := {
  descriptPackageId := id, url := "server/package", size := 1, fileName := "package", verifyInfo := ""
  versionNumber := "2.0", targetBlVersionNumber := "2.0", targetBlDisplayVersionNumber := "2.0", blVersionType := 1
  componentId := id, versionPackageType := .normal }

/-- A version whose packages have the given ids and the given descriptions. -/
def describedVersion (ids contents : List String) : Json := .obj [("searchStatus", .num 0),
  ("checkResults", .arr (ids.map checkResultJson)), ("descriptInfo", .arr (contents.map descriptInfoJson))]

/-- The phone whose server tells such a version. -/
def Platform.described (ids contents : List String) : Platform := { Platform.phone with
  jsonParse := fun text => if text = versionText then some (describedVersion ids contents) else none }

theorem parse_described (ids contents : List String) :
    JsonUtils.parseAndGetJsonObject (.described ids contents) versionText = some (describedVersion ids contents) := rfl

/-- The state after the version was analysed on an empty phone whose disk takes everything, its packages stored. -/
def describedState (ids contents : List String) : State := {
  ((FirmwareCheckAnalyzeUtils.doAnalyze (.described ids contents) versionText).run
    ((Thread.netChanged 0 .noNet).answered fun _ => .bool true) {}).2 with
  components := (ids.map describedPackage).map FirmwareCheckDataProcessor.buildComponentSPath }

/-- One package with one description. -/
theorem changelogs_faithful_iff_single :
    (getNewVersionDescription "en-us").Ends ((Thread.netChanged 0 .noNet).answered fun _ => .bool true)
        (describedState ["package"] ["new"]) (fun r _ => r.1.errorNum = .success ∧
          r.2 = List.zipWith (ownDescription (.described ["package"] ["new"]) "en-us") [describedPackage "package"]
            (descriptInfos (describedVersion ["package"] ["new"]))) ↔
      ∀ (i : Nat) c e, [describedPackage "package"][i]? = some c →
        (descriptInfos (describedVersion ["package"] ["new"]))[i]? = some e →
        DescribedAlike (.described ["package"] ["new"]) (fun _ => .bool true) "en-us" (fun _ => none) [describedPackage "package"]
          (descriptInfos (describedVersion ["package"] ["new"])) c e := by
  have hroot : JsonUtils.parseAndGetJsonObject (.described ["package"] ["new"]) versionText =
      some (describedVersion ["package"] ["new"]) := parse_described ["package"] ["new"]
  have hrun : (FirmwareCheckAnalyzeUtils.doAnalyze (.described ["package"] ["new"]) versionText).run
      ((Thread.netChanged 0 .noNet).answered fun _ => .bool true) {} = (some [describedPackage "package"], _) :=
    Prod.ext (by decide) rfl
  have ht : (describedState ["package"] ["new"]).stopped = false := by decide
  exact changelogs_faithful_iff _ (t := describedState ["package"] ["new"]) hroot (List.cons_ne_nil _ _) rfl hrun rfl rfl ht "en-us"

/-- Two packages with a description each, on an empty phone whose disk takes everything: the first one has no changelog afterwards,
and the client is told that the request has failed. -/
theorem first_package_not_described :
    JsonUtils.parseAndGetJsonObject (.described ["a", "b"] ["first", "second"]) versionText =
        some (describedVersion ["a", "b"] ["first", "second"]) ∧
      ((FirmwareCheckAnalyzeUtils.doAnalyze (.described ["a", "b"] ["first", "second"]) versionText).run
        ((Thread.netChanged 0 .noNet).answered fun _ => .bool true) {}).1 = some (["a", "b"].map describedPackage) ∧
      (descriptInfos (describedVersion ["a", "b"] ["first", "second"])).length = (["a", "b"].map describedPackage).length ∧
      ¬ (getNewVersionDescription "en-us").Ends ((Thread.netChanged 0 .noNet).answered fun _ => .bool true)
        (describedState ["a", "b"] ["first", "second"]) (fun r _ => r.1.errorNum = .success ∧
          r.2 = List.zipWith (ownDescription (.described ["a", "b"] ["first", "second"]) "en-us") (["a", "b"].map describedPackage)
            (descriptInfos (describedVersion ["a", "b"] ["first", "second"]))) := by
  refine ⟨parse_described _ _, by decide, rfl, ?_⟩
  intro h
  obtain ⟨r, t, hrun, hsuccess, -⟩ := Prog.ends_iff_run.mp h
  have hfailed : (((getNewVersionDescription "en-us").run ((Thread.netChanged 0 .noNet).answered fun _ => .bool true)
      (describedState ["a", "b"] ["first", "second"])).1.map (·.1.errorNum)) = some .fail := by decide
  rw [hrun, Option.map_some, hsuccess] at hfailed
  exact absurd hfailed (by decide)

end UpdateEngine
