import RdfTemplates.Checks
import RdfTemplates.Expansion.Bodies
import RdfTemplates.Failure
import RdfTemplates.Substitution.Lookup
import RdfTemplates.Proofs.Refactoring
import RdfTemplates.Proofs.Expansion.Soundness
import RdfTemplates.Proofs.Store.Bodies
import RdfTemplates.Proofs.Store.Catalog
import RdfTemplates.Proofs.Store.Fetching
import RdfTemplates.Proofs.Store.GraphStructure
import RdfTemplates.Proofs.Expansion.Outcome
import RdfTemplates.Proofs.Expansion.Fixpoint
import RdfTemplates.Proofs.Expansion.Hygiene
import RdfTemplates.Proofs.Store.PredicateIndex
import RdfTemplates.Proofs.Query.Dependencies
import RdfTemplates.Proofs.Query.EqualTemplates
import RdfTemplates.Proofs.Refactoring.Exactness
import RdfTemplates.Proofs.Store.Stability
import RdfTemplates.Proofs.Types.Compatibility
import RdfTemplates.Proofs.Matching.Placements
import RdfTemplates.Proofs.ListExpansion.Cross
import RdfTemplates.Proofs.ListExpansion.Substituted
import RdfTemplates.Proofs.Matching.Truncation
import RdfTemplates.Proofs.Matching.Reordering
import RdfTemplates.Proofs.ListExpansion.Zips
import RdfTemplates.Proofs.Freshening.Simultaneous
import RdfTemplates.Proofs.Store.ReadingBack
import RdfTemplates.Proofs.Store.DeclaredTypes
import RdfTemplates.Proofs.Expansion.StepLimit
import RdfTemplates.Proofs.Expansion.Arity
import RdfTemplates.Proofs.Store.FailedFetches
import RdfTemplates.Proofs.Expansion.ArgumentChecks
import RdfTemplates.Proofs.Refactoring.Candidates
import RdfTemplates.Proofs.Query.Unifiers
import RdfTemplates.Proofs.Query.Modes
