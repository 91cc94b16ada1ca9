import EbuildAudit.Check.Catalog
import EbuildAudit.Proofs.Addon.Standing

namespace EbuildAudit

def Checking.AsksOnly (addons : List AddonId) (x : Checking α) : Prop :=
  x.run.AsksOnly addons

def Check.Modest (c : Check) : Prop :=
  ∀ ctx, Checking.AsksOnly c.requiredAddons (c.run ctx)

variable {addons : List AddonId} {addon : AddonId} {ctx : CheckContext}

namespace Checking.AsksOnly

theorem pure (a : α) : AsksOnly addons (Pure.pure a) := trivial

theorem fault (fault : CheckFault) : AsksOnly addons (throw fault : Checking α) := trivial

theorem bind {x : Checking α} {f : α → Checking β} (hx : AsksOnly addons x)
    (hf : ∀ a, AsksOnly addons (f a)) : AsksOnly addons (x >>= f) := by
  apply Query.AsksOnly.bind hx
  intro result
  cases result with
  | ok a => exact hf a
  | error fault => trivial

theorem needMetadata : AsksOnly addons ctx.needMetadata := by
  unfold CheckContext.needMetadata
  cases ctx.metadata with
  | some metadata => exact pure metadata
  | none => exact fault _

theorem needScript : AsksOnly addons ctx.needScript := by
  unfold CheckContext.needScript
  cases ctx.script with
  | some script => exact pure _
  | none => exact fault _

theorem needAddon (read : AddonValue → Option α) (h : addon ∈ addons) :
    AsksOnly addons (needAddon read addon) := by
  unfold EbuildAudit.needAddon
  apply bind
  · exact ⟨h, fun outcome => trivial⟩
  · intro found
    cases found with
    | ok a => exact pure a
    | error stop => exact fault _

end Checking.AsksOnly

namespace Check

open Checking (AsksOnly)

theorem detecting_modest (name : String) (detectors : List Shell.Detector) :
    (detecting name detectors).Modest := by
  intro ctx
  refine AsksOnly.bind .needMetadata fun metadata => ?_
  refine AsksOnly.bind .needScript fun script => ?_
  cases script with
  | error failure => exact .pure _
  | ok tree => exact .pure _

theorem shellSyntax_modest : shellSyntax.Modest := by
  intro ctx
  refine AsksOnly.bind .needScript fun script => ?_
  cases script with
  | error failure => exact .pure _
  | ok tree => exact .pure _

theorem dependencies_modest : dependencies.Modest := by
  intro ctx
  refine AsksOnly.bind .needMetadata fun metadata => ?_
  exact AsksOnly.bind (.needAddon _ List.mem_cons_self) fun index => .pure _

theorem python_modest : python.Modest := by
  intro ctx
  refine AsksOnly.bind .needMetadata fun metadata => ?_
  cases pythonEclasses.find? metadata.inherits with
  | none => exact .pure _
  | some eclass =>
    cases Text.occursIn "PYTHON_REQUIRED_USE" metadata.requiredUse with
    | true => exact .pure _
    | false => exact .pure _

theorem advisories_modest : advisories.Modest := by
  intro ctx
  simp only [advisories]
  split
  case h_1 category package text _ =>
    cases Version.parse? text with
    | none => exact .pure _
    | some version =>
      refine AsksOnly.bind .needMetadata fun metadata => ?_
      exact AsksOnly.bind (.needAddon _ List.mem_cons_self) fun index => .pure _
  case h_2 => exact .pure _

theorem keywords_modest : keywords.Modest := by
  intro ctx
  simp only [keywords]
  cases ctx.unit.id.packageKey? with
  | none => exact .pure _
  | some key =>
    refine AsksOnly.bind (.needAddon _ List.mem_cons_self) fun index => ?_
    cases droppedIn (index.versions key) with
    | none => exact .pure _
    | some dropped => exact .pure _

theorem shellSummary_modest : shellSummary.Modest :=
  fun _ => AsksOnly.pure _

theorem categories_modest : categories.Modest := by
  intro ctx
  simp only [categories]
  cases ctx.unit.id with
  | category name =>
    refine AsksOnly.bind (.needAddon _ List.mem_cons_self) fun data => ?_
    cases data.categories.contains name with
    | true => exact .pure _
    | false => exact .pure _
  | _ => exact .pure _

theorem repoProfiles_modest : repoProfiles.Modest :=
  fun _ => AsksOnly.bind (.needAddon _ List.mem_cons_self) fun _ => .pure _

theorem profiles_modest : profiles.Modest := by
  intro ctx
  refine AsksOnly.bind (.needAddon _ List.mem_cons_self) fun data => ?_
  refine AsksOnly.bind (.needAddon _ (List.mem_cons_of_mem _ List.mem_cons_self)) fun flags => ?_
  exact AsksOnly.bind (.needAddon _ (by decide)) fun index => .pure _

theorem builtin_modest : ∀ c ∈ builtin, c.Modest := by
  simp only [builtin, List.forall_mem_cons]
  exact ⟨shellSyntax_modest, detecting_modest _ _, detecting_modest _ _, detecting_modest _ _,
    dependencies_modest, python_modest, advisories_modest, keywords_modest, shellSummary_modest,
    categories_modest, repoProfiles_modest, profiles_modest, by simp⟩

end Check

end EbuildAudit
