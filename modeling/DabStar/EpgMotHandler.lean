import DabStar.Lib.Paths

/-! `EpgMotHandler::handle_mot_object` and the files it makes. The labels are cleaned and the
pictures and texts are named by their hash, while the name of an EPG object goes into the path
as it was received. -/

namespace DabStar.EpgMotHandler
open List
open DabStar.Lib.Paths (Text Place components resolve here)

abbrev Bytes := List Nat

inductive MOTContentBaseType
  | generalData | text | image | audio | video | transport | system | application | proprietary
  deriving DecidableEq, Repr

def getContentBaseType (contentType : BitVec 32) : Option MOTContentBaseType :=
  match ((contentType &&& 0x3f00#32) >>> 8).toNat with
  | 0 => some .generalData
  | 1 => some .text
  | 2 => some .image
  | 3 => some .audio
  | 4 => some .video
  | 5 => some .transport
  | 6 => some .system
  | 7 => some .application
  | 0x3f => some .proprietary
  | _ => none

def getContentSubType (contentType : BitVec 32) : Nat := (contentType &&& 0xff#32).toNat

structure Folder where
  path : Text
  closed : path = [] ∨ path.getLast? = some '/'

def Folder.unset : Folder := ⟨[],Or.inl rfl⟩

def Folder.below (basePath name : Text) : Folder := ⟨basePath ++ name ++ ['/'],Or.inr (by simp)⟩

structure Fib where
  eId : Nat
  modJulianDate : Nat
  deriving DecidableEq, Repr

structure Handler where
  mEpgPath : Folder := .unset
  mPicPath : Folder := .unset
  mMotPath : Folder := .unset
  mMotPicPathLast : Text := []
  mCurEnsembleName : Text := []
  mCurServiceLabel : Text := []
  mIsChannelRunning : Bool := false
  mpDabProcessor : Option Fib := none
  mpServiceList : List Nat := []
  mMotObjectCnt : Nat := 0
  -- the current indices of the two combo boxes, -1 when nothing is selected
  cmbEpgObjectSaving5 : Int := -1
  cmbMotObjectSaving5 : Int := -1

def Handler.slotInitPaths (h : Handler) (basePath : Text) : Handler :=
  { h with
    mPicPath := .below basePath ['P','I','C']
    mMotPath := .below basePath ['M','O','T']
    mEpgPath := .below basePath ['E','P','G'] }

def Handler.setChannelInfo (h : Handler) (ensembleName : Text) : Handler := { h with mCurEnsembleName := ensembleName }

def Handler.setServiceLabel (h : Handler) (label : Text) : Handler := { h with mCurServiceLabel := label }

/- The file system and the SHA-1 of Qt, of which only the shape of the digest matters. -/
structure World where
  present : Text → Bool
  opens : Text → Bool
  sha1Hex : Bytes → Text
  hexDigits : ∀ data, ∀ c ∈ sha1Hex data, c.isDigit = true ∨ ('a' ≤ c ∧ c ≤ 'f')

inductive Effect
  | generated (basePath path : Text)
  | mkpath (dir : Text)
  | write (path : Text) (data : Bytes)
  | decode (data : Bytes) (path : Text)
  | processEpg (data : Bytes) (sId subType julianDate : Nat)
  | show (data : Bytes) (type : Text)
  deriving DecidableEq, Repr

def isSpace (c : Char) : Bool :=
  c.toNat = 0x20 || (0x09 ≤ c.toNat && c.toNat ≤ 0x0d) || c.toNat = 0x85 || c.toNat = 0xa0 ||
    c.toNat = 0x1680 || (0x2000 ≤ c.toNat && c.toNat ≤ 0x200a) || c.toNat = 0x2028 ||
    c.toNat = 0x2029 || c.toNat = 0x202f || c.toNat = 0x205f || c.toNat = 0x3000

def trimmed (text : Text) : Text := ((text.dropWhile isSpace).reverse.dropWhile isSpace).reverse

/- The class of the regular expression; its `\s` knows the ASCII spaces only. -/
def unfit (c : Char) : Bool :=
  c = '<' || c = '>' || c = ':' || c.toNat = 0x22 || c = '/' || c.toNat = 0x5c || c = '|' ||
    c = '?' || c = '*' || c.toNat = 0x20 || (0x09 ≤ c.toNat && c.toNat ≤ 0x0d)

def pathName (label : Text) : Text := (trimmed label).map fun c => if unfit c then '-' else c

def directoryOf (path : Text) : Text := if '/' ∈ path then ((path.reverse.dropWhile (· ≠ '/')).drop 1).reverse else path

def createDirectory (w : World) (dirOrPath : Text) (containsFileName : Bool) : List Effect :=
  let temp := if containsFileName then directoryOf dirOrPath else dirOrPath
  if w.present temp then [] else [.mkpath temp]

def Handler.pathEnsemble (h : Handler) : Text := pathName h.mCurEnsembleName

def Handler.pathService (h : Handler) : Text := pathName h.mCurServiceLabel

def Handler.filename (h : Handler) (fileName : Text) : Text := h.pathEnsemble ++ ['_'] ++ h.pathService ++ ['_'] ++ fileName

def Handler.generateFilePath (h : Handler) (w : World) (basePath fileName : Text)
    (dirLevel : Int) : Text × List Effect :=
  let path := basePath
  let path := if dirLevel ≥ 1 then path ++ (h.pathEnsemble ++ ['/']) else path
  let path := if dirLevel ≥ 2 then path ++ (h.pathService ++ ['/']) else path
  let path := path ++ h.filename fileName
  (path, .generated basePath path :: createDirectory w path true)

def Handler.generateUniqueFilePathFromHash (h : Handler) (w : World) (basePath fileExt : Text)
    (data : Bytes) (dirLevel : Int) : Text × List Effect :=
  let filename := (w.sha1Hex data).take 8
  let filename := if fileExt ≠ [] then filename ++ ('.' :: fileExt) else filename
  h.generateFilePath w basePath filename dirLevel

def lowered (text : Text) : Text := text.map Char.toLower

def Handler.extractEpg (h : Handler) (name : Text) : Nat := (h.mpServiceList.find? fun sId => Nat.toDigits 16 sId <:+: lowered name).getD 0

def Handler.saveMotEpgData (h : Handler) (w : World) (data : Bytes) (objectName : Text)
    (contentType : BitVec 32) : Bool × List Effect :=
  match h.mpDabProcessor with
  | none => (false, [])
  | some fib =>
    if h.mEpgPath.path = [] then (false, [])
    else
      let processed := [.processEpg data (h.extractEpg objectName)
        (getContentSubType contentType) fib.modJulianDate]
      if h.cmbEpgObjectSaving5 > 0 then
        let temp := if objectName = [] then ['e','p','g','_','f','i','l','e'] else objectName
        let (path, made) := h.generateFilePath w h.mEpgPath.path temp (h.cmbEpgObjectSaving5 - 1)
        (true, processed ++ made ++ [.decode data path])
      else (true, processed)

def Handler.saveMotText (h : Handler) (w : World) (data : Bytes) (_contentType : BitVec 32)
    (_name : Text) : List Effect :=
  if h.mMotPath.path = [] then []
  else
    let (path, made) :=
      h.generateUniqueFilePathFromHash w h.mMotPath.path [] data (h.cmbMotObjectSaving5 - 1)
    if w.present path then made
    else if w.opens path then made ++ [.write path data]
    else made

def Handler.saveMotObject (h : Handler) (w : World) (data : Bytes) (name : Text) :
    Handler × List Effect :=
  if h.mMotPath.path = [] then (h, [])
  else if name = [] then
    let counted := ['m','o','t','O','b','j','e','c','t','_'] ++
      Nat.toDigits 10 h.mMotObjectCnt
    let h' := { h with mMotObjectCnt := h.mMotObjectCnt + 1 }
    (h', h'.saveMotText w data 5 counted)
  else (h, h.saveMotText w data 5 name)

def pictureType (contentType : BitVec 32) : Option Text :=
  match contentType.toNat with
  | 0x200 => some ['g','i','f']
  | 0x201 => some ['j','p','g']
  | 0x202 => some ['b','m','p']
  | 0x203 => some ['p','n','g']
  | _ => none

def Handler.showMotImage (h : Handler) (w : World) (data : Bytes) (contentType : BitVec 32)
    (pictureName : Text) : Handler × List Effect :=
  if h.mIsChannelRunning = false ∨ pictureName = [] then (h, [])
  else
    match pictureType contentType with
    | none => (h, [])
    | some type =>
      if h.cmbMotObjectSaving5 > 0 ∧ h.mPicPath.path ≠ [] ∧ h.mCurServiceLabel ≠ [] then
        let (pict, made) := h.generateUniqueFilePathFromHash w h.mPicPath.path type data
          (h.cmbMotObjectSaving5 - 1)
        let written :=
          if w.present pict then []
          else if w.opens pict then [.write pict data]
          else []
        ({ h with mMotPicPathLast := pict }, made ++ written ++ [.show data type])
      else (h, [.show data type])

def Handler.handleMotObject (h : Handler) (w : World) (result : Bytes) (objectName : Text)
    (contentType : BitVec 32) : Handler × List Effect :=
  match getContentBaseType contentType with
  | some .text => (h, h.saveMotText w result contentType objectName)
  | some .image => h.showMotImage w result contentType objectName
  | some .transport => h.saveMotObject w result objectName
  | some .application => (h, (h.saveMotEpgData w result objectName contentType).2)
  | _ => (h, [])

structure Route where
  basePath : Folder
  fileName : Text
  dirLevel : Int

def Handler.epgRoute (h : Handler) (objectName : Text) : Option Route :=
  if h.mpDabProcessor ≠ none ∧ h.mEpgPath.path ≠ [] ∧ h.cmbEpgObjectSaving5 > 0 then
    some ⟨h.mEpgPath,
      if objectName = [] then ['e','p','g','_','f','i','l','e'] else objectName,
      h.cmbEpgObjectSaving5 - 1⟩
  else none

def Handler.textRoute (h : Handler) (w : World) (data : Bytes) : Option Route :=
  if h.mMotPath.path ≠ [] then
    some ⟨h.mMotPath,(w.sha1Hex data).take 8,h.cmbMotObjectSaving5 - 1⟩
  else none

def Handler.imageRoute (h : Handler) (w : World) (data : Bytes) (pictureName : Text)
    (contentType : BitVec 32) : Option Route :=
  if h.mIsChannelRunning = true ∧ pictureName ≠ [] ∧ h.cmbMotObjectSaving5 > 0 ∧
      h.mPicPath.path ≠ [] ∧ h.mCurServiceLabel ≠ [] then
    (pictureType contentType).map fun type =>
      ⟨h.mPicPath,(w.sha1Hex data).take 8 ++ ('.' :: type),h.cmbMotObjectSaving5 - 1⟩
  else none

def Handler.route (h : Handler) (w : World) (data : Bytes) (objectName : Text)
    (contentType : BitVec 32) : Option Route :=
  match getContentBaseType contentType with
  | some .text => h.textRoute w data
  | some .image => h.imageRoute w data objectName contentType
  | some .transport => h.textRoute w data
  | some .application => h.epgRoute objectName
  | _ => none

def generatedPaths (effects : List Effect) : List (Text × Text) :=
  effects.filterMap fun
    | .generated basePath path => some (basePath, path)
    | _ => none

def Handler.routePath (h : Handler) (r : Route) : Text :=
  r.basePath.path ++ (if r.dirLevel ≥ 1 then h.pathEnsemble ++ ['/'] else []) ++
    (if r.dirLevel ≥ 2 then h.pathService ++ ['/'] else []) ++ h.filename r.fileName

section Routes

variable (h : Handler) (w : World)

theorem generatedAppend (front back : List Effect) : generatedPaths (front ++ back) = generatedPaths front ++ generatedPaths back := by
  simp [generatedPaths]

theorem generatedListed (effects : List Effect) (basePath path : Text) :
    (basePath, path) ∈ generatedPaths effects ↔ Effect.generated basePath path ∈ effects := by
  rw [generatedPaths,mem_filterMap]
  constructor
  · rintro ⟨effect,made,same⟩
    cases effect <;> simp at same
    obtain ⟨rfl,rfl⟩ := same
    exact made
  · intro made
    exact ⟨_,made,rfl⟩

theorem createSilent (path : Text) (named : Bool) : generatedPaths (createDirectory w path named) = [] := by
  simp only [createDirectory]
  split_ifs <;> rfl

theorem generatePath (r : Route) : (h.generateFilePath w r.basePath.path r.fileName r.dirLevel).1 = h.routePath r := by
  simp only [Handler.generateFilePath,Handler.routePath]
  split_ifs <;> simp

theorem generateOnce (r : Route) : generatedPaths (h.generateFilePath w r.basePath.path r.fileName r.dirLevel).2 =
      [(r.basePath.path, h.routePath r)] := by
  rw [← generatePath h w r]
  have silent := createSilent w (h.generateFilePath w r.basePath.path r.fileName r.dirLevel).1 true
  simpa [Handler.generateFilePath,generatedPaths] using silent

variable (data : Bytes)

theorem epgPaths (name : Text) (contentType : BitVec 32) : generatedPaths (h.saveMotEpgData w data name contentType).2 =
      ((h.epgRoute name).map fun r => (r.basePath.path, h.routePath r)).toList := by
  simp only [Handler.saveMotEpgData,Handler.epgRoute]
  cases h.mpDabProcessor with
  | none => rfl
  | some fib =>
    by_cases unset : h.mEpgPath.path = []
    · simp [unset,generatedPaths]
    · by_cases saving : h.cmbEpgObjectSaving5 > 0
      · simp only [unset,saving,if_false,if_true,generatedAppend]
        rw [generateOnce h w ⟨h.mEpgPath,_,_⟩]
        simp [generatedPaths,unset]
      · simp [unset,saving,generatedPaths]

theorem textPaths (contentType : BitVec 32) (name : Text) : generatedPaths (h.saveMotText w data contentType name) =
      ((h.textRoute w data).map fun r => (r.basePath.path, h.routePath r)).toList := by
  simp only [Handler.saveMotText,Handler.textRoute,Handler.generateUniqueFilePathFromHash]
  by_cases unset : h.mMotPath.path = []
  · simp [unset,generatedPaths]
  · have once := generateOnce h w ⟨h.mMotPath,(w.sha1Hex data).take 8,h.cmbMotObjectSaving5 - 1⟩
    simp only [ne_eq,not_true_eq_false,unset,not_false_eq_true,if_false,if_true]
    split_ifs <;> simp only [generatedAppend,once] <;> rfl

theorem objectPaths (name : Text) : generatedPaths (h.saveMotObject w data name).2 =
      ((h.textRoute w data).map fun r => (r.basePath.path, h.routePath r)).toList := by
  simp only [Handler.saveMotObject]
  split_ifs with unset
  · simp [Handler.textRoute,unset,generatedPaths]
  · exact textPaths { h with mMotObjectCnt := h.mMotObjectCnt + 1 } w data 5 []
  · exact textPaths h w data 5 name

theorem pictureNamed {contentType : BitVec 32} {type : Text} (known : pictureType contentType = some type) : type ≠ [] ∧ '/' ∉ type := by
  unfold pictureType at known
  split at known <;> cases known <;> decide

theorem imagePaths (contentType : BitVec 32) (name : Text) : generatedPaths (h.showMotImage w data contentType name).2 =
      ((h.imageRoute w data name contentType).map fun r =>
        (r.basePath.path, h.routePath r)).toList := by
  simp only [Handler.showMotImage,Handler.imageRoute]
  by_cases idle : h.mIsChannelRunning = false ∨ name = []
  · have off : ¬(h.mIsChannelRunning = true ∧ name ≠ [] ∧ h.cmbMotObjectSaving5 > 0 ∧ h.mPicPath.path ≠ [] ∧ h.mCurServiceLabel ≠ []) := by
      rintro ⟨running,named,-⟩
      rcases idle with stopped | unnamed
      · simp [running] at stopped
      · exact named unnamed
    rw [if_pos idle,if_neg off]
    rfl
  · rw [if_neg idle]
    simp only [not_or,Bool.not_eq_false] at idle
    simp only [idle,ne_eq,not_false_eq_true,true_and]
    cases known : pictureType contentType with
    | none => split_ifs <;> rfl
    | some type =>
      have once := generateOnce h w ⟨h.mPicPath,(w.sha1Hex data).take 8 ++ ('.' :: type),h.cmbMotObjectSaving5 - 1⟩
      by_cases saving : h.cmbMotObjectSaving5 > 0 ∧ ¬h.mPicPath.path = [] ∧ ¬h.mCurServiceLabel = []
      · simp only [saving,not_false_eq_true,and_self,if_true,Handler.generateUniqueFilePathFromHash,(pictureNamed known).1,ne_eq,
          generatedAppend,once]
        split_ifs <;> rfl
      · simp only [saving,if_false]
        rfl

theorem objectRoute (name : Text) (contentType : BitVec 32) : generatedPaths (h.handleMotObject w data name contentType).2 =
      ((h.route w data name contentType).map fun r =>
        (r.basePath.path, h.routePath r)).toList := by
  simp only [Handler.handleMotObject,Handler.route]
  split
  · exact textPaths h w data contentType name
  · exact imagePaths h w data contentType name
  · exact objectPaths h w data name
  · exact epgPaths h w data name contentType
  · rfl

end Routes

def Handler.trail (h : Handler) (r : Route) : List Text :=
  (if r.dirLevel ≥ 1 then [h.pathEnsemble] else []) ++
    (if r.dirLevel ≥ 2 then [h.pathService] else []) ++ components (h.filename r.fileName)

/- Taken from nowhere, the trail climbs over no more folders than the base path has, and
goes down again into those it climbed over. -/
def Handler.Confined (h : Handler) (r : Route) : Prop := (resolve r.basePath.path).Returns (here.walk (h.trail r))

instance (h : Handler) (r : Route) : Decidable (h.Confined r) := by unfold Handler.Confined; infer_instance

theorem fitSlash (c : Char) : (if unfit c then '-' else c) ≠ '/' := by
  split
  · decide
  · rename_i fit
    rintro rfl
    exact fit (by decide)

theorem pathNamePlain (label : Text) : '/' ∉ pathName label := by
  intro inside
  obtain ⟨c,-,same⟩ := mem_map.mp inside
  exact fitSlash c same

theorem folderSplit {f : Folder} (set : f.path ≠ []) : ∃ front, f.path = front ++ ['/'] := by
  have last := f.closed.resolve_left set
  exact ⟨f.path.dropLast,by
    rw [← dropLast_append_getLast? '/' last]
    simp⟩

variable (h : Handler)

theorem routeWalk {r : Route} (set : r.basePath.path ≠ []) : resolve (h.routePath r) = (resolve r.basePath.path).walk (h.trail r) := by
  obtain ⟨front,base⟩ := folderSplit set
  have ensemble := Lib.Paths.componentsPlain (pathNamePlain h.mCurEnsembleName)
  have service := Lib.Paths.componentsPlain (pathNamePlain h.mCurServiceLabel)
  have below : ∀ rest, resolve (front ++ ['/'] ++ rest) = (resolve (front ++ ['/'])).walk (components rest) := by
    intro rest
    simpa using Lib.Paths.resolveBelow front rest
  simp only [Handler.routePath,base,append_assoc,Handler.trail] at below ⊢
  rw [below]
  congr 1
  split_ifs <;>
    simp [Lib.Paths.componentsSlash,Handler.pathEnsemble,Handler.pathService,ensemble,service]

theorem routeSet {h : Handler} {w : World} {data : Bytes} {name : Text} {contentType : BitVec 32}
    {r : Route} (taken : h.route w data name contentType = some r) : r.basePath.path ≠ [] := by
  have text : h.textRoute w data = some r → r.basePath.path ≠ [] := by
    intro found
    simp only [Handler.textRoute,Option.ite_none_right_eq_some,Option.some.injEq] at found
    obtain ⟨set,rfl⟩ := found
    exact set
  simp only [Handler.route] at taken
  split at taken
  · exact text taken
  · simp only [Handler.imageRoute,Option.ite_none_right_eq_some,Option.map_eq_some_iff] at taken
    obtain ⟨⟨-,-,-,set,-⟩,type,-,rfl⟩ := taken
    exact set
  · exact text taken
  · simp only [Handler.epgRoute,Option.ite_none_right_eq_some,Option.some.injEq] at taken
    obtain ⟨⟨-,set,-⟩,rfl⟩ := taken
    exact set
  · exact nomatch taken

theorem routeHeld {r : Route} (set : r.basePath.path ≠ []) : (resolve r.basePath.path).Holds (resolve (h.routePath r)) ↔ h.Confined r := by
  rw [routeWalk h set,Lib.Paths.holdsWalk,Handler.Confined]

theorem pathsConfined (h : Handler) (w : World) (data : Bytes) (name : Text) (contentType : BitVec 32) : (∀ basePath path,
      Effect.generated basePath path ∈ (h.handleMotObject w data name contentType).2 → (resolve basePath).Holds (resolve path)) ↔
      ∀ r, h.route w data name contentType = some r → h.Confined r := by
  have calls : ∀ basePath path, Effect.generated basePath path ∈ (h.handleMotObject w data name contentType).2 ↔
        ∃ r, h.route w data name contentType = some r ∧ (r.basePath.path, h.routePath r) = (basePath, path) := by
    intro basePath path
    rw [← generatedListed,objectRoute,Option.mem_toList,Option.map_eq_some_iff]
  constructor
  · intro inside r taken
    exact (routeHeld h (routeSet taken)).mp (inside _ _ ((calls _ _).mpr ⟨r,taken,rfl⟩))
  · intro confined basePath path made
    obtain ⟨r,taken,same⟩ := (calls basePath path).mp made
    cases same
    exact (routeHeld h (routeSet taken)).mpr (confined r taken)

def plainWorld : World where
  present := fun _ => false
  opens := fun _ => true
  sha1Hex := fun _ => ['0','0','0','0','0','0','0','0']
  hexDigits := by
    intro data c inside
    simp only [List.mem_cons,List.not_mem_nil,or_false,or_self] at inside
    exact Or.inl (inside ▸ by decide)

def savingHandler (ensemble : Text) (level : Int) : Handler :=
  { ((({} : Handler).slotInitPaths ['/','d','/']).setChannelInfo ensemble).setServiceLabel ['S']
    with
    mpDabProcessor := some ⟨0x1001,60000⟩
    cmbEpgObjectSaving5 := level + 1
    cmbMotObjectSaving5 := level + 1 }

theorem climbingNamesEscape : (∃ basePath path, Effect.generated basePath path ∈ ((savingHandler ['E'] 0).handleMotObject plainWorld []
        ['a','/','.','.','/','.','.','/','x'] 0x0700#32).2 ∧ ¬(resolve basePath).Holds (resolve path) ∧
      resolve path = ⟨true,0,[['d'],['x']]⟩) ∧ ∃ basePath path,
      Effect.generated basePath path ∈ ((savingHandler ['.','.'] 1).handleMotObject plainWorld [] ['t'] 0x0100#32).2 ∧
      ¬(resolve basePath).Holds (resolve path) := by
  refine ⟨⟨['/','d','/','E','P','G','/'],
    ['/','d','/','E','P','G','/','E','_','S','_','a','/','.','.','/','.','.','/',
      'x'],?_,?_,?_⟩,['/','d','/','M','O','T','/'],
    ['/','d','/','M','O','T','/','.','.','/','.','.','_','S','_','0','0','0','0','0','0','0','0'],?_,?_⟩ <;> decide

end DabStar.EpgMotHandler
