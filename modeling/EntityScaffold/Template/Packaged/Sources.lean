/- The packaged templates of an entity's own sources: model, controller, service, routes and validator. -/

namespace EntityScaffold.Template.Packaged

def model : List String := [
  "export interface $\x7bModelName\x7d \x7b",
  "    $\x7bmodelFields\x7d",
  "\x7d"]

def controller : List String := [
  "import \x7b inject, injectable \x7d from 'inversify';",
  "import \x7b BaseController \x7d from './BaseController';",
  "import \x7b $\x7bModelName\x7dService \x7d from '../services/$\x7bmodelName\x7dService';",
  "",
  "@injectable()",
  "export class $\x7bModelName\x7dController extends BaseController<$\x7bModelName\x7dService> \x7b",
  "    protected service: $\x7bModelName\x7dService;",
  "    constructor(@inject($\x7bModelName\x7dService) $\x7bmodelName\x7dService: $\x7bModelName\x7dService) \x7b",
  "        super();",
  "        this.service = $\x7bmodelName\x7dService;",
  "    \x7d",
  "\x7d"]

def service : List String := [
  "import \x7b injectable \x7d from 'inversify';",
  "import \x7b BaseService \x7d from './BaseService';",
  "import \x7b $\x7bModelName\x7d \x7d from '../models/$\x7bModelName\x7d';",
  "import prisma from '../config/prismaClient';",
  "",
  "@injectable()",
  "export class $\x7bModelName\x7dService extends BaseService<$\x7bModelName\x7d> \x7b",
  "    protected model: any;",
  "    protected relatedModels: any;",
  "    constructor() \x7b",
  "        super();",
  "        this.model = prisma.$\x7bmodelName\x7d;",
  "    \x7d",
  "\x7d"]

def routes : List String := [
  "import \x7b validate \x7d from '../middlewares/validate';",
  "import container from '../config/inversifyConfig';",
  "import checkPermissions from '../middlewares/checkPermissions';",
  "import \x7b $\x7bModelName\x7dController \x7d from '../controllers/$\x7bmodelName\x7dController';",
  "import \x7b",
  "    $\x7bmodelName\x7dValidationRules,",
  "    $\x7bmodelName\x7dUpdateValidationRules,",
  "\x7d from '../validators/$\x7bmodelName\x7dValidator';",
  "import \x7b createRouter, RouteConfig \x7d from './BaseRouter';",
  "",
  "const $\x7bmodelName\x7dController =",
  "    container.get<$\x7bModelName\x7dController>($\x7bModelName\x7dController);",
  "",
  "const $\x7bmodelName\x7dRoutes: RouteConfig<$\x7bModelName\x7dController>[] = [",
  "    \x7b",
  "        method: 'post',",
  "        path: '/create',",
  "        action: 'create',",
  "        middlewares: [",
  "            checkPermissions([\x7b permission: '$\x7bpermission\x7d', action: 'add' \x7d]),",
  "            $\x7bmodelName\x7dValidationRules(),",
  "            validate,",
  "        ],",
  "    \x7d,",
  "    \x7b",
  "        method: 'get',",
  "        path: '/all',",
  "        action: 'getAll',",
  "        middlewares: [",
  "            checkPermissions([\x7b permission: '$\x7bpermission\x7d', action: 'view' \x7d]),",
  "        ],",
  "    \x7d,",
  "    \x7b",
  "        method: 'put',",
  "        path: '/:id',",
  "        action: 'update',",
  "        middlewares: [",
  "            checkPermissions([\x7b permission: '$\x7bpermission\x7d', action: 'edit' \x7d]),",
  "            $\x7bmodelName\x7dUpdateValidationRules(),",
  "            validate,",
  "        ],",
  "    \x7d,",
  "    \x7b",
  "        method: 'delete',",
  "        path: '/:id',",
  "        action: 'delete',",
  "        middlewares: [",
  "            checkPermissions([\x7b permission: '$\x7bpermission\x7d', action: 'remove' \x7d]),",
  "        ],",
  "    \x7d,",
  "    \x7b",
  "        method: 'get',",
  "        path: '/:id',",
  "        action: 'getById',",
  "        middlewares: [",
  "            checkPermissions([\x7b permission: '$\x7bpermission\x7d', action: 'view' \x7d]),",
  "        ],",
  "    \x7d,",
  "];",
  "",
  "const $\x7bmodelName\x7dRouter = createRouter($\x7bmodelName\x7dController, $\x7bmodelName\x7dRoutes);",
  "export default $\x7bmodelName\x7dRouter;"]

def validator : List String := [
  "import \x7b PrismaClient \x7d from '@prisma/client';",
  "import \x7b body, ValidationChain \x7d from 'express-validator';",
  "import i18n from 'i18n';",
  "",
  "const prisma = new PrismaClient();",
  "",
  "export const $\x7bmodelName\x7dValidationRules = (): ValidationChain[] => \x7b",
  "  return [",
  "      $\x7bcreateValidation\x7d",
  "  ];",
  "\x7d;",
  "",
  "export const $\x7bmodelName\x7dUpdateValidationRules = (): ValidationChain[] => \x7b",
  "  return [",
  "      $\x7bupdateValidation\x7d",
  "  ];",
  "\x7d;"]

end EntityScaffold.Template.Packaged
