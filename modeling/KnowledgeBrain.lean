import KnowledgeBrain.Workflow.Retention
import KnowledgeBrain.Workflow.Acknowledgements
import KnowledgeBrain.Workflow.Wakeup
import KnowledgeBrain.Workflow.Conversions
import KnowledgeBrain.Workflow.Obligations
import KnowledgeBrain.Retrieval.Iteration
import KnowledgeBrain.Retrieval.Agreement
import KnowledgeBrain.ObjectRegistry.Lifetime
import KnowledgeBrain.SemanticIndex.Readiness
import KnowledgeBrain.Tender.History
import KnowledgeBrain.Tender.Spending
import KnowledgeBrain.Tender.GroupRecovery
import KnowledgeBrain.Corrections.Calls
import KnowledgeBrain.Outline.History
import KnowledgeBrain.Evidence.Plan
import KnowledgeBrain.Chunker.Children
import KnowledgeBrain.Authoring.Agreement
import KnowledgeBrain.Chunker.Breadcrumbs
import KnowledgeBrain.Ingest.Locators
import KnowledgeBrain.Wiki.Slugs
import KnowledgeBrain.Evidence.Quotes
import KnowledgeBrain.DocReader.HostGrids
import KnowledgeBrain.DocReader.OfficeTables
import KnowledgeBrain.DocReader.OfficeLinks
import KnowledgeBrain.Llm.Terminal
import KnowledgeBrain.Llm.ShortReferences
import KnowledgeBrain.Analysis.CandidateGroups
import KnowledgeBrain.Templates.Selectable
import KnowledgeBrain.DocReader.FieldOverlaps
import KnowledgeBrain.Editor.Uploads
import KnowledgeBrain.Drafting.WritingPlan
import KnowledgeBrain.Views.Lossless
import KnowledgeBrain.DocReader.RuledTexts
