import NomadDev.GitHubCatalogue
import NomadDev.GitHubSchema

namespace NomadDev.GitHub

open Auth Tools List

variable {F α : Type}

structure CatalogueTool extends UpstreamTool where
  description : String
  inputSchema : Option Json

structure ToolSpec (F : Type) where
  (name description : String)
  parameters : Schema F

def unprefixedName (name : String) : String := String.ofList (bareName name)

structure CallToolParams (α : Type) where
  name : String
  arguments : α

def callToolParams (tool : String) (args : α) : CallToolParams α := ⟨unprefixedName tool, args⟩

section Specs

variable (parseFloat : String → Option F) (text : Json → String)

def toolSpec (t : CatalogueTool) : ToolSpec F where
  name := prefixedName t.name
  description := t.description
  parameters :=
    match t.inputSchema with
    | none => .ofType "object" ""
    | some j => convertSchema parseFloat text (.document j)

def buildToolList (tools : List (Option CatalogueTool)) : List (ToolSpec F) × List String :=
  (tools.reduceOption.map (toolSpec parseFloat text), destrSet (tools.reduceOption.map CatalogueTool.toUpstreamTool))

end Specs

variable {parseFloat : String → Option F} {text : Json → String} {name : String}

theorem unprefixedName_prefixedName (h : hasPrefix name gitHubToolPrefix = false) :
    unprefixedName (prefixedName name) = name := by
  have hprefixed := prefixedName_hasPrefix name
  have hname : prefixedName name = gitHubToolPrefix ++ name := if_neg (Bool.eq_false_iff.mp h)
  rw [unprefixedName, bareName, if_pos hprefixed, hname, String.toList_append, ← String.length_toList, drop_left,
    String.ofList_toList]

theorem unprefixedName_ne (h : hasPrefix name gitHubToolPrefix = true) : unprefixedName name ≠ name := by
  intro heq
  have hlen : (unprefixedName name).toList.length = name.toList.length - gitHubToolPrefix.length := by
    rw [unprefixedName, bareName, if_pos h, String.toList_ofList, length_drop]
  rw [heq] at hlen
  have hle := (List.isPrefixOf_iff_prefix.mp h).length_le
  have hpos : 0 < gitHubToolPrefix.length := by decide
  rw [String.length_toList] at hle
  omega

theorem prefixedName_of_hasPrefix (h : hasPrefix name gitHubToolPrefix = true) : prefixedName name = name := if_pos h

def Faithful (parseFloat : String → Option F) (text : Json → String) (tools : List CatalogueTool) (destr : List String)
    (spec : ToolSpec F) : Prop :=
  ∃ t ∈ tools, (∀ (α : Type) (args : α), (callToolParams spec.name args).name = t.name) ∧
    spec = toolSpec parseFloat text t ∧ (spec.name ∈ destr ↔ isDestructiveTool t.toUpstreamTool = true)

theorem advertised_invoked_iff {tools : List (Option CatalogueTool)}
    (hnames : (tools.reduceOption.map fun t => t.name).Nodup) :
    (((buildToolList parseFloat text tools).1.map ToolSpec.name).Nodup ∧
      ∀ spec ∈ (buildToolList parseFloat text tools).1,
        Faithful parseFloat text tools.reduceOption (buildToolList parseFloat text tools).2 spec) ↔
      ∀ t ∈ tools.reduceOption, hasPrefix t.name gitHubToolPrefix = false := by
  generalize htools : tools.reduceOption = listed at hnames
  simp only [buildToolList, htools, map_map]
  constructor
  · rintro ⟨hnodup, hall⟩ t ht
    by_contra hprefix
    rw [Bool.not_eq_false] at hprefix
    obtain ⟨u, hu, hcall, hspec, -⟩ := hall _ (mem_map_of_mem ht)
    have hsame : t = u := inj_on_of_nodup_map hnodup ht hu (congrArg ToolSpec.name hspec)
    subst hsame
    have hbare : unprefixedName (prefixedName t.name) = t.name := hcall Unit ()
    rw [prefixedName_of_hasPrefix hprefix] at hbare
    exact unprefixedName_ne hprefix hbare
  · intro hplain
    have hinj : ∀ t ∈ listed, ∀ u ∈ listed, prefixedName t.name = prefixedName u.name → t = u := by
      intro t ht u hu heq
      apply inj_on_of_nodup_map hnames ht hu
      rw [← unprefixedName_prefixedName (hplain t ht), heq, unprefixedName_prefixedName (hplain u hu)]
    constructor
    · exact hnames.of_map.map_on hinj
    · intro spec hspec
      obtain ⟨t, ht, rfl⟩ := mem_map.mp hspec
      refine ⟨t, ht, fun _ _ => unprefixedName_prefixedName (hplain t ht), rfl, ?_⟩
      rw [destrSet, mem_map]
      constructor
      · rintro ⟨_, hmem, heq⟩
        obtain ⟨hmem, hdestr⟩ := mem_filter.mp hmem
        obtain ⟨u, hu, rfl⟩ := mem_map.mp hmem
        rwa [← hinj u hu t ht heq]
      · intro hdestr
        exact ⟨t.toUpstreamTool, mem_filter.mpr ⟨mem_map_of_mem ht, hdestr⟩, rfl⟩

def issueTool (name : String) : CatalogueTool := ⟨⟨name, none⟩, "", none⟩

def listed (names : List String) : List (ToolSpec String) × List String :=
  buildToolList readString (fun _ => "") (names.map fun name => some (issueTool name))

theorem advertised_invoked_issues : ((listed ["get_issue", "add_issue"]).1.map ToolSpec.name).Nodup ∧
    ∀ spec ∈ (listed ["get_issue", "add_issue"]).1, Faithful readString (fun _ => "")
      [issueTool "get_issue", issueTool "add_issue"] (listed ["get_issue", "add_issue"]).2 spec :=
  (@advertised_invoked_iff String readString (fun _ => "") [some (issueTool "get_issue"), some (issueTool "add_issue")]
    (by decide)).mpr (by decide)

theorem prefixed_tool_misnamed :
    (listed ["get_issue", "github_get_issue"]).1.map ToolSpec.name = ["github_get_issue", "github_get_issue"] ∧
      (listed ["github_add_issue"]).1.map ToolSpec.name = ["github_add_issue"] ∧
      (callToolParams "github_add_issue" ()).name = "add_issue" := by
  decide +kernel

end NomadDev.GitHub
